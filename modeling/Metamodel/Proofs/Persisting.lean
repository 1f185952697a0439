import Metamodel.Proofs.Annotations

/-!
# Metamodel.Proofs.Persisting -- what can be instantiated goes on to be

Whether an instance can be made depends on what is looked up on the way: the aliases that come to a
datatype, the constants among dimensions, and whatever canonical templates hold, through and
through. An identifier among these that belongs to no object yet may come to belong to any object.
Main statement: where all of them have been made, it is settled whether an instance can be made, for
every later repository in which composites and declarations are what they were.
-/

namespace Metamodel

open Relation (ReflTransGen)

variable {κ : Type} {ts : TypeSystem κ} {r r' r'' : Repository ts}

/-! ## What is looked up for an instance -/

/-- The constant that gives a bound. -/
def Bound.constant? : Bound → Option ObjectId
  | .constant id => some id
  | _ => none

/-- What an alias names in an entry: its target, and the constants among its dimensions. -/
def Entry.sources : Entry → List ObjectId
  | .type target => [target]
  | .qualifier q => q.dimensions.filterMap Bound.constant?
  | _ => []

namespace Repository

variable {id x element t : ObjectId} {m : ModelId} {q : Qualifier} {v : Value} {depth : Nat}

/-- The objects that an instance of the object is made from: those that an alias names, and those
that the canonical template of any other datatype holds. -/
def sources (r : Repository ts) (id : ObjectId) : List ObjectId :=
  match r.modelOf? id with
  | none => []
  | some m =>
    if r.isAlias m then (r.entriesOf m).flatMap Entry.sources
    else (r.templateFields? m).elim [] fun fields => fields.values.filterMap Value.object?

/-- The object and all that instances of it are made from, through and through, have been made. Some
of them may have been released. -/
def Grounded (r : Repository ts) (id : ObjectId) : Prop :=
  ∀ x, ReflTransGen (fun a b => b ∈ r.sources a) id x → x.index < r.objects.size

theorem Grounded.made (h : r.Grounded id) : id.index < r.objects.size := h id .refl

theorem Grounded.source (h : r.Grounded id) (hx : x ∈ r.sources id) : r.Grounded x :=
  fun y hy => h y (.head hx hy)

theorem grounded_of_sources (hid : id.index < r.objects.size)
    (h : ∀ x ∈ r.sources id, r.Grounded x) : r.Grounded id := by
  intro y hy
  rcases ReflTransGen.cases_head hy with rfl | ⟨x, hx, hxy⟩
  · exact hid
  · exact h x hx y hxy

theorem sources_alias (hm : r.modelOf? id = some m) (halias : r.isAlias m = true) :
    r.sources id = (r.entriesOf m).flatMap Entry.sources := by
  simp only [sources, hm, halias, if_true]

/-- What the canonical template holds is looked up where it is no alias. -/
theorem mem_sources_of_held (hm : r.modelOf? id = some m) {d : Datatype κ}
    (hd : r.model? m = some (.datatype d)) (halias : ts.isAlias d.kind = false)
    {f : Table String Value} (hT : r.object? d.template = some (.composite m f))
    (hv : v ∈ f.values) (hx : v.object? = some x) : x ∈ r.sources id := by
  simp only [sources, hm, isAlias_datatype hd, halias, Bool.false_eq_true, if_false,
    templateFields?_eq hd hT, Option.elim_some]
  exact List.mem_filterMap.mpr ⟨v, hv, hx⟩

/-! ## Repositories in which they are the same -/

/-- Composites and declarations are as they were, collections may have got elements, and nothing
comes back. -/
structure Undisturbed (r r' : Repository ts) : Prop where
  objects_le : r.objects.size ≤ r'.objects.size
  models_le : r.models.size ≤ r'.models.size
  composite : ∀ {id m f}, r.object? id = some (.composite m f) →
    r'.object? id = some (.composite m f)
  collection : ∀ {id m es}, r.object? id = some (.collection m es) →
    ∃ es', r'.object? id = some (.collection m es')
  gone : ∀ {id}, id.index < r.objects.size → r.object? id = none → r'.object? id = none
  shape : ∀ {m s}, r.model? m = some (.shape s) → r'.model? m = some (.shape s)
  datatype : ∀ {m d}, r.model? m = some (.datatype d) →
    ∃ g, r'.model? m = some (.datatype { d with registry := g })

namespace Undisturbed

theorem refl (r : Repository ts) : r.Undisturbed r where
  objects_le := Nat.le_refl _
  models_le := Nat.le_refl _
  composite ho := ho
  collection ho := ⟨_, ho⟩
  gone _ ho := ho
  shape hs := hs
  datatype {_ d} hd := ⟨d.registry, hd⟩

theorem extend (h : r.Undisturbed r') (hext : r'.Extends r'') : r.Undisturbed r'' where
  objects_le := Nat.le_trans h.objects_le hext.objects_le
  models_le := Nat.le_trans h.models_le hext.models_le
  composite ho := hext.object?_some (h.composite ho)
  collection ho := by
    obtain ⟨es, ho'⟩ := h.collection ho
    exact ⟨es, hext.object?_some ho'⟩
  gone hid ho := by
    rw [hext.object? (Nat.lt_of_lt_of_le hid h.objects_le)]
    exact h.gone hid ho
  shape hs := hext.shape (h.shape hs)
  datatype hd := by
    obtain ⟨g, hd'⟩ := h.datatype hd
    obtain ⟨g', hd''⟩ := hext.datatype hd'
    exact ⟨g', hd''⟩

theorem writeElement (h : r.Undisturbed r') (x : ObjectId) (index : Nat) (v : Value) :
    r.Undisturbed (r'.writeElement x index v) where
  objects_le := by simpa using h.objects_le
  models_le := by simpa using h.models_le
  composite ho := composite_writeElement.mpr (h.composite ho)
  collection ho := by
    obtain ⟨es, ho'⟩ := h.collection ho
    exact ⟨_, collection_writeElement.mpr ⟨es, ho', rfl⟩⟩
  gone hid ho := by
    have hnone := h.gone hid ho
    cases ho' : (r'.writeElement x index v).object? _ with
    | none => rfl
    | some o =>
      cases o with
      | composite m f => simp [composite_writeElement.mp ho'] at hnone
      | collection m es =>
        obtain ⟨es', ho', -⟩ := collection_writeElement.mp ho'
        simp [ho'] at hnone
  shape hs := by rw [model?_writeElement, h.shape hs]
  datatype hd := by simpa only [model?_writeElement] using h.datatype hd

/-! ## Look-ups of what has been made -/

variable (h : r.Undisturbed r')

include h

/-- What a chain of aliases comes to is of the datatype that it was of. -/
theorem isPlain (hseed : r.seed id = .ok (.plain t)) (hplain : r'.IsPlain t m) :
    r.IsPlain t m := by
  obtain ⟨⟨n, hplain₀⟩, -⟩ := seed_plain hseed
  obtain ⟨f, ho⟩ := hplain₀.object?
  have hn := modelOf?_of_object? (h.composite ho)
  obtain rfl : m = n := Option.some.inj (hplain.modelOf?.symm.trans hn)
  exact hplain₀

theorem modelOf? (hid : id.index < r.objects.size) : r'.modelOf? id = r.modelOf? id := by
  unfold Repository.modelOf?
  cases ho : r.object? id with
  | none => rw [h.gone hid ho]
  | some o =>
    cases o with
    | composite m f => rw [h.composite ho]
    | collection m es =>
      obtain ⟨es', ho'⟩ := h.collection ho
      rw [ho']
      rfl

theorem isCollection (hid : id.index < r.objects.size) :
    r'.isCollection id = r.isCollection id := by
  unfold Repository.isCollection elements?
  cases ho : r.object? id with
  | none => rw [h.gone hid ho]
  | some o =>
    cases o with
    | composite m f => rw [h.composite ho]
    | collection m es =>
      obtain ⟨es', ho'⟩ := h.collection ho
      rw [ho']
      rfl

/-- A model is the same but for its registry. -/
theorem model? (hm : m.index < r.models.size) :
    r'.nameOf m = r.nameOf m ∧ r'.kindOf? m = r.kindOf? m ∧ r'.entriesOf m = r.entriesOf m := by
  obtain ⟨model, hmodel⟩ : ∃ model, r.model? m = some model := by simp [Repository.model?, hm]
  cases model with
  | shape s => simp [nameOf, Repository.kindOf?, entriesOf, hmodel, h.shape hmodel]
  | datatype d =>
    obtain ⟨g, hmodel'⟩ := h.datatype hmodel
    simp [nameOf, Repository.kindOf?, entriesOf, hmodel, hmodel', Model.name, Model.kind?,
      Model.entries, Model.datatype?]

theorem isAlias (hm : m.index < r.models.size) : r'.isAlias m = r.isAlias m := by
  rw [Repository.isAlias, Repository.isAlias, (h.model? hm).2.1]

theorem isLeaf (hm : m.index < r.models.size) : r'.isLeaf m = r.isLeaf m := by
  rw [Repository.isLeaf, Repository.isLeaf, (h.model? hm).2.1]

variable (hr : r.Annotated)

include hr

theorem modelOf?_cases (hid : id.index < r.objects.size) :
    (r.modelOf? id = none ∧ r'.modelOf? id = none) ∨
      ∃ m, m.index < r.models.size ∧ r.modelOf? id = some m ∧ r'.modelOf? id = some m := by
  rw [h.modelOf? hid]
  cases hm : r.modelOf? id with
  | none => exact .inl ⟨rfl, rfl⟩
  | some m =>
    obtain ⟨o, ho, rfl⟩ := modelOf?_eq_some_iff.mp hm
    exact .inr ⟨_, hr.wellFormed.model_lt ho, rfl, rfl⟩

theorem label (hid : id.index < r.objects.size) : r'.label id = r.label id := by
  rcases h.modelOf?_cases hr hid with ⟨hm, hm'⟩ | ⟨m, hlt, hm, hm'⟩
  · simp only [Repository.label, hm, hm']
  · simp only [Repository.label, hm, hm', (h.model? hlt).1]

theorem kind? (hid : id.index < r.objects.size) : r'.kind? id = r.kind? id := by
  rcases h.modelOf?_cases hr hid with ⟨hm, hm'⟩ | ⟨m, hlt, hm, hm'⟩
  · simp only [Repository.kind?, hm, hm', Option.bind_none]
  · simp only [Repository.kind?, hm, hm', Option.bind_some, (h.model? hlt).2.1]

theorem assertTemplateKind (hid : id.index < r.objects.size) :
    r'.assertTemplateKind id = r.assertTemplateKind id := by
  unfold Repository.assertTemplateKind
  rw [h.label hr hid]
  cases ho : r.object? id with
  | none => rw [h.gone hid ho]
  | some o =>
    cases o with
    | composite m f =>
      have hlt : m.index < r.models.size := hr.wellFormed.model_lt ho
      simp only [h.composite ho, (h.model? hlt).2.1]
    | collection m es =>
      obtain ⟨es', ho'⟩ := h.collection ho
      simp only [ho']

theorem checkContent (hid : id.index < r.objects.size) :
    r'.checkContent id = r.checkContent id := by
  unfold Repository.checkContent
  rw [h.label hr hid, h.assertTemplateKind hr hid]
  cases ho : r.object? id with
  | none => rw [h.gone hid ho]
  | some o =>
    cases o with
    | composite m f => rw [h.composite ho]
    | collection m es =>
      obtain ⟨es', ho'⟩ := h.collection ho
      rw [ho']

theorem resolveBound {bound : Bound}
    (hbound : ∀ x, bound.constant? = some x → x.index < r.objects.size) :
    r'.resolveBound bound = r.resolveBound bound := by
  cases bound with
  | unbounded => rfl
  | size n => rfl
  | constant id =>
    have hid := hbound id rfl
    simp only [Repository.resolveBound, h.label hr hid]
    rcases h.modelOf?_cases hr hid with ⟨hm, hm'⟩ | ⟨m, hlt, hm, hm'⟩
    · simp only [hm, hm']
    · simp only [hm, hm', (h.model? hlt).2.2]

/-- Collections can be made of what has been made, or they cannot. -/
theorem spans_iff (helement : element.index < r.objects.size)
    (hq : ∀ x ∈ q.dimensions.filterMap Bound.constant?, x.index < r.objects.size) :
    r'.Spans element q ↔ r.Spans element q := by
  have hbounds : q.bounds.mapM r'.resolveBound = q.bounds.mapM r.resolveBound := by
    refine mapM_congr (List.forall₂_same.mpr fun bound hbound => ?_)
    refine h.resolveBound hr fun x hx => hq x ?_
    unfold Qualifier.bounds at hbound
    split at hbound
    · obtain rfl := List.mem_singleton.mp hbound
      simp [Bound.constant?] at hx
    · exact List.mem_filterMap.mpr ⟨bound, hbound, hx⟩
  have hcapacities : r'.capacities q = r.capacities q := by
    rw [Repository.capacities, Repository.capacities, hbounds]
  constructor
  · rintro ⟨hcontent, hcs⟩
    exact ⟨by rwa [h.checkContent hr helement] at hcontent, by rwa [hcapacities] at hcs⟩
  · rintro ⟨hcontent, hcs⟩
    exact ⟨by rwa [h.checkContent hr helement], by rwa [hcapacities]⟩

theorem isCollectionQualifier (hq : q.datatype.index < r.objects.size) :
    r'.isCollectionQualifier q = r.isCollectionQualifier q := by
  rw [Repository.isCollectionQualifier, Repository.isCollectionQualifier, h.kind? hr hq]

/-- The annotations of a declaration were there when they were named. -/
theorem aliasDefinition {d : Datatype κ} (hd : r.model? m = some (.datatype d)) :
    r'.aliasDefinition m = r.aliasDefinition m := by
  obtain ⟨hname, -, hentries⟩ := h.model? (index_lt_of_model? hd)
  unfold Repository.aliasDefinition
  rw [hentries, hname]
  cases hsplit : Entry.splitTarget? (r.entriesOf m) with
  | none => rfl
  | some split =>
    simp only
    congr 2
    refine List.filter_congr fun q hq => h.isCollectionQualifier hr ?_
    obtain ⟨e, he, heq⟩ := List.mem_filterMap.mp hq
    obtain rfl := Entry.qualifier?_eq_some_iff.mp heq
    have hmem := Entry.mem_of_splitTarget? hsplit (List.mem_cons_of_mem _ he)
    rw [entriesOf_datatype hd] at hmem
    exact hr.made hd hmem

end Undisturbed

/-! ## Seeds -/

/-- What an alias names is looked up. -/
theorem mem_sources_of_aliasDefinition (hm : r.modelOf? id = some m) (halias : r.isAlias m = true)
    {target : ObjectId} {qs : List Qualifier} (hdef : r.aliasDefinition m = .ok (target, qs)) :
    target ∈ r.sources id ∧
      ∀ q ∈ qs, ∀ x ∈ q.dimensions.filterMap Bound.constant?, x ∈ r.sources id := by
  rw [sources_alias hm halias]
  unfold aliasDefinition at hdef
  cases hsplit : Entry.splitTarget? (r.entriesOf m) with
  | none => simp [hsplit] at hdef
  | some split =>
    obtain ⟨t, rest⟩ := split
    simp only [hsplit, Except.ok.injEq, Prod.mk.injEq] at hdef
    obtain ⟨rfl, rfl⟩ := hdef
    have htype := Entry.mem_of_splitTarget? hsplit List.mem_cons_self
    refine ⟨List.mem_flatMap.mpr ⟨_, htype, List.mem_singleton_self _⟩, fun q hq x hx => ?_⟩
    obtain ⟨e, he, heq⟩ := List.mem_filterMap.mp (List.mem_of_mem_filter hq)
    obtain rfl := Entry.qualifier?_eq_some_iff.mp heq
    have hmem := Entry.mem_of_splitTarget? hsplit (List.mem_cons_of_mem _ he)
    exact List.mem_flatMap.mpr ⟨_, hmem, hx⟩

/-- What instances are made of, collections or a composite, has been made. -/
def SeedGrounded (r : Repository ts) : Seed → Prop
  | .plain t => r.Grounded t
  | .nested element q => r.Grounded element ∧
      ∀ x ∈ q.dimensions.filterMap Bound.constant?, r.Grounded x

/-- A chain of aliases comes to what has been made. By induction on its length. -/
theorem Grounded.seedWithin (hid : r.Grounded id) {seed : Seed}
    (htemplate : r.assertTemplateKind id = .ok id) (hseed : r.seedWithin depth id = .ok seed) :
    r.SeedGrounded seed := by
  induction depth generalizing id with
  | zero =>
    obtain ⟨-, m, f, d, ho, -⟩ := assertTemplateKind_eq_ok_iff.mp htemplate
    rw [seedWithin_zero (modelOf_of_object? ho)] at hseed
    split at hseed
    · simp at hseed
    · obtain rfl := Except.ok.inj hseed
      exact hid
  | succ depth ih =>
    obtain ⟨-, m, f, d, ho, -⟩ := assertTemplateKind_eq_ok_iff.mp htemplate
    rw [seedWithin_succ (modelOf_of_object? ho)] at hseed
    split at hseed
    · next halias =>
      obtain ⟨⟨target, qs⟩, hdef, hseed⟩ := bind_eq_ok_iff.mp hseed
      obtain ⟨htarget, hqs⟩ := mem_sources_of_aliasDefinition (modelOf?_of_object? ho) halias hdef
      cases qs with
      | cons q qs =>
        obtain rfl := Except.ok.inj hseed
        exact ⟨hid.source htarget, fun x hx => hid.source (hqs q List.mem_cons_self x hx)⟩
      | nil =>
        obtain ⟨next, hnext, hrest⟩ := bind_eq_ok_iff.mp hseed
        obtain rfl := (assertTemplateKind_eq_ok_iff.mp hnext).1
        exact ih (hid.source htarget) hnext hrest
    · obtain rfl := Except.ok.inj hseed
      exact hid

theorem Grounded.seed (hid : r.Grounded id) {seed : Seed} (hseed : r.seed id = .ok seed) :
    r.SeedGrounded seed := by
  obtain ⟨x, htemplate, hwithin⟩ := bind_eq_ok_iff.mp hseed
  obtain rfl := (assertTemplateKind_eq_ok_iff.mp htemplate).1
  exact hid.seedWithin htemplate hwithin

namespace Undisturbed

variable (h : r.Undisturbed r') (hr : r.Annotated)

include h hr

/-- A chain of aliases comes to the same end, or fails in the same way. -/
theorem seedWithin (hid : r.Grounded id) (htemplate : r.assertTemplateKind id = .ok id) :
    r'.seedWithin depth id = r.seedWithin depth id := by
  induction depth generalizing id with
  | zero =>
    obtain ⟨-, m, f, d, ho, hd, -⟩ := assertTemplateKind_eq_ok_iff.mp htemplate
    have hm : r.modelOf id = .ok m := modelOf_of_object? ho
    have hm' : r'.modelOf id = .ok m := modelOf_of_object? (h.composite ho)
    rw [seedWithin_zero hm, seedWithin_zero hm', h.isAlias (index_lt_of_model? hd)]
  | succ depth ih =>
    obtain ⟨-, m, f, d, ho, hd, -⟩ := assertTemplateKind_eq_ok_iff.mp htemplate
    have hm : r.modelOf id = .ok m := modelOf_of_object? ho
    have hm' : r'.modelOf id = .ok m := modelOf_of_object? (h.composite ho)
    rw [seedWithin_succ hm, seedWithin_succ hm', h.isAlias (index_lt_of_model? hd),
      h.aliasDefinition hr hd]
    split
    · next halias =>
      cases hdef : r.aliasDefinition m with
      | error e => rfl
      | ok definition =>
        obtain ⟨target, qs⟩ := definition
        obtain ⟨htarget, -⟩ := mem_sources_of_aliasDefinition (modelOf?_of_object? ho) halias hdef
        cases qs with
        | cons q qs => rfl
        | nil =>
          show (r'.assertTemplateKind target >>= r'.seedWithin depth) =
            (r.assertTemplateKind target >>= r.seedWithin depth)
          rw [h.assertTemplateKind hr (hid.source htarget).made]
          cases hnext : r.assertTemplateKind target with
          | error e => rfl
          | ok next =>
            obtain rfl := (assertTemplateKind_eq_ok_iff.mp hnext).1
            exact ih (hid.source htarget) hnext
    · rfl

theorem seed (hid : r.Grounded id) : r'.seed id = r.seed id := by
  unfold Repository.seed
  rw [h.assertTemplateKind hr hid.made]
  cases htemplate : r.assertTemplateKind id with
  | error e => rfl
  | ok x =>
    obtain rfl := (assertTemplateKind_eq_ok_iff.mp htemplate).1
    exact h.seedWithin hr hid htemplate

end Undisturbed

/-! ## Which instances can be made -/

variable {made : ObjectId → Prop}

/-- A value can be copied, given which instances can be made. -/
def CopyableWith (r : Repository ts) (made : ObjectId → Prop) : Value → Prop
  | .collection x => r.isCollection x = true
  | .composite x => made x
  | _ => True

/-- An instance can be made, given which values can be copied. -/
inductive MakeableWith (r : Repository ts) (copyable : Value → Prop) (id : ObjectId) : Prop
  | nested {element : ObjectId} {q : Qualifier} (hseed : r.seed id = .ok (.nested element q))
      (hspans : r.Spans element q)
  | leaf {t : ObjectId} {m : ModelId} (hseed : r.seed id = .ok (.plain t))
      (hplain : r.IsPlain t m) (hleaf : r.isLeaf m = true)
  | composite {t : ObjectId} {m : ModelId} {d : Datatype κ} {f : Table String Value}
      (hseed : r.seed id = .ok (.plain t)) (hplain : r.IsPlain t m)
      (hd : r.model? m = some (.datatype d)) (hleaf : r.isLeaf m = false)
      (hT : r.object? d.template = some (.composite m f)) (hfields : ∀ v ∈ f.values, copyable v)

/-- An instance can be made, with at most `depth` datatypes nested. -/
def Makeable (r : Repository ts) : Nat → ObjectId → Prop
  | 0 => fun _ => False
  | depth + 1 => r.MakeableWith (r.CopyableWith (Makeable r depth))

/-- Collections are what has a shape. -/
theorem WellFormed.isCollection_iff_shape (h : r.WellFormed) :
    r.isCollection x = true ↔ ∃ s, r.shape x = .ok s := by
  rw [isCollection_iff]
  constructor
  · rintro ⟨m, es, ho⟩
    obtain ⟨s, hs, -⟩ := h.collection ho
    exact ⟨s, shape_eq_ok_iff.mpr ⟨m, es, ho, hs⟩⟩
  · rintro ⟨s, hs⟩
    obtain ⟨m, es, ho, -⟩ := shape_eq_ok_iff.mp hs
    exact ⟨m, es, ho⟩

/-- What can be made stays so if more datatypes may be nested. -/
theorem Makeable.of_le {deeper : Nat} (hle : depth ≤ deeper) (h : r.Makeable depth id) :
    r.Makeable deeper id := by
  induction depth generalizing id deeper with
  | zero => exact h.elim
  | succ depth ih =>
    obtain ⟨deeper, rfl⟩ := Nat.exists_eq_add_of_le' (Nat.lt_of_lt_of_le (Nat.succ_pos depth) hle)
    cases h with
    | nested hseed hspans => exact .nested hseed hspans
    | leaf hseed hplain hleaf => exact .leaf hseed hplain hleaf
    | composite hseed hplain hd hleaf hT hfields =>
      refine .composite hseed hplain hd hleaf hT fun v hv => ?_
      have hvalue := hfields v hv
      cases v with
      | composite x => exact ih (Nat.le_of_succ_le_succ hle) hvalue
      | _ => exact hvalue

end Repository

namespace Step

open Repository (Grounded Undisturbed)

variable {id : ObjectId} {under : String} {v : Value} {owned : Bool} {depth : Nat}
  {made : ObjectId → Prop}

/-- A value is copied exactly if it can be. -/
theorem cloneWith_copyable (hr' : r'.WellFormed) {make : ObjectId → String → Step ts Value}
    (hmade : ∀ x, v = .composite x →
      (make x under).Ensures r' (fun _ _ => made x) fun _ _ => ¬ made x)
    (hcollection : ∀ x, v = .collection x → r'.isCollection x = r.isCollection x) :
    (cloneWith make owned v under).Ensures r' (fun _ _ => r.CopyableWith made v)
      fun _ _ => ¬ r.CopyableWith made v := by
  cases v with
  | accessor path => exact trivial
  | scalar s => exact trivial
  | composite x => exact hmade x rfl
  | collection x =>
    show Ensures _ _ (fun _ _ => r.isCollection x = true) fun _ _ => ¬ r.isCollection x = true
    rw [← hcollection x rfl, hr'.isCollection_iff_shape]
    simp only [cloneWith, copyCollection, ensures_map, ensures_bind, ensures_query]
    refine ⟨fun s hs => ?_, fun e he => by simp [he]⟩
    simp only [buildCollection, ensures_bind, ensures_ask, ensures_edit, ensures_pure]
    exact ⟨s, hs⟩

/-- All fields are copied exactly if each can be. -/
theorem cloneFieldsWith_copyable (h : r.Undisturbed r') (hr' : r'.WellFormed)
    {make : ObjectId → String → Step ts Value} (fields : Table String Value)
    (hmakes : ∀ r₁, r₁.WellFormed → ∀ x, MakesValue (make x under) r₁)
    (hmade : ∀ r₁, r.Undisturbed r₁ → r₁.WellFormed → ∀ x, .composite x ∈ fields.values →
      (make x under).Ensures r₁ (fun _ _ => made x) fun _ _ => ¬ made x)
    (hcollection : ∀ x, .collection x ∈ fields.values → x.index < r.objects.size) :
    (cloneFieldsWith make owned fields under).Ensures r'
      (fun _ _ => ∀ v ∈ fields.values, r.CopyableWith made v)
      fun _ _ => ¬ ∀ v ∈ fields.values, r.CopyableWith made v := by
  rw [cloneFieldsWith, ensures_bind]
  refine (ensures_mapEach (P := fun r₁ => r₁.WellFormed ∧ r.Undisturbed r₁)
    (R := fun _ field _ => r.CopyableWith made field.2) fields.entries ?_ ⟨hr', h⟩).imp ?_
    fun _ _ h => h
  · rintro ⟨role, v⟩ hfield r₁ ⟨hr₁, h₁⟩
    have hv : v ∈ fields.values := List.mem_map.mpr ⟨_, hfield, rfl⟩
    have hcopy : (cloneWith make owned v under).Ensures r₁ (fun _ _ => r.CopyableWith made v)
        fun _ _ => ¬ r.CopyableWith made v :=
      cloneWith_copyable hr₁ (fun x hx => hmade r₁ h₁ hr₁ x (hx ▸ hv))
        fun x hx => h₁.isCollection (hcollection x (hx ▸ hv))
    simp only [ensures_bind, ensures_pure]
    refine ((cloneWith_makes hr₁ fun x _ => hmakes r₁ hr₁ x).and hcopy).imp ?_
      fun _ _ hno hall => hno.2 (hall v hv)
    rintro copy r₂ ⟨⟨hgrew, -⟩, hcopyable⟩
    exact ⟨⟨hgrew.1, h₁.extend hgrew.2⟩, fun _ _ h => h, hcopyable⟩
  · rintro copies r₁ ⟨-, -, hcopies⟩ v hv
    obtain ⟨field, hfield, rfl⟩ := List.mem_map.mp hv
    obtain ⟨_, -, hcopyable⟩ := hcopies.exists_right hfield
    exact hcopyable

/-- In every later repository an instance is made exactly if it could be made. By induction on the
depth: what the canonical template holds is what it held, and has been made. -/
theorem instantiate_makeable (hr : r.Annotated) (h : r.Undisturbed r') (hr' : r'.WellFormed)
    (hid : r.Grounded id) (owned : Bool) (depth : Nat) (under : String) :
    (instantiate owned depth id under).Ensures r' (fun _ _ => r.Makeable depth id)
      fun _ _ => ¬ r.Makeable depth id := by
  induction depth generalizing r' id under with
  | zero => exact fun h => h
  | succ depth ih =>
    have hsame := h.seed hr hid
    apply instantiate_ensures hr'
    case hrefused =>
      intro e he hmakeable
      rw [hsame] at he
      cases hmakeable <;> simp_all
    case hnested =>
      intro element q hseed
      rw [hsame] at hseed
      obtain ⟨helement, hq⟩ := hid.seed hseed
      have hspans := h.spans_iff hr helement.made fun x hx => (hq x hx).made
      refine (newCollections_spans element q under owned).imp
        (fun _ _ hs => .nested hseed (hspans.mp hs)) fun _ _ hno hmakeable => ?_
      cases hmakeable with
      | nested hseed' hs =>
        obtain ⟨rfl, rfl⟩ := Seed.nested.inj (Except.ok.inj (hseed.symm.trans hseed'))
        exact hno (hspans.mpr hs)
      | leaf hseed' => simp [hseed] at hseed'
      | composite hseed' => simp [hseed] at hseed'
    case hleaf =>
      intro t m hseed hplain hleaf
      rw [hsame] at hseed
      have hplain₀ := h.isPlain hseed hplain
      obtain ⟨d, hd, -⟩ := hplain₀.datatype
      exact .leaf hseed hplain₀ (by rwa [← h.isLeaf (Repository.index_lt_of_model? hd)])
    case hcomposite =>
      intro t m d' f hseed hplain hd' hkind hT'
      rw [hsame] at hseed
      have hplain₀ := h.isPlain hseed hplain
      obtain ⟨d, hd, -, halias⟩ := hplain₀.datatype
      have hleaf : r.isLeaf m = false := by
        rw [← h.isLeaf (Repository.index_lt_of_model? hd), Repository.isLeaf_datatype hd',
          hkind.2.2]
      -- The canonical template holds what it held.
      have hT : r.object? d.template = some (.composite m f) := by
        obtain ⟨g, hg⟩ := h.datatype hd
        obtain rfl := Repository.datatype_unique hd' hg
        obtain ⟨f₀, hT⟩ := hr.wellFormed.template hd
        obtain ⟨-, rfl⟩ := Repository.composite_unique hT' (h.composite hT)
        exact hT
      have hsource : ∀ {v x}, v ∈ f.values → v.object? = some x → r.Grounded x := fun hv hx =>
        Grounded.source (hid.seed hseed)
          (Repository.mem_sources_of_held hplain₀.modelOf? hd halias hT hv hx)
      refine (cloneFieldsWith_copyable h hr' f
        (fun r₁ hr₁ x => instantiate_makes hr₁ owned depth x _)
        (fun r₁ h₁ hr₁ x hx => ih h₁ hr₁ (hsource hx rfl) _)
        fun x hx => (hsource hx rfl).made).imp
        (fun _ _ hfields => .composite hseed hplain₀ hd hleaf hT hfields)
        fun _ _ hno hmakeable => hno ?_
      cases hmakeable with
      | nested hseed' => simp [hseed] at hseed'
      | leaf hseed' hplain' hleaf' =>
        obtain ⟨rfl, rfl⟩ := Repository.plain_unique hseed hplain₀ hseed' hplain'
        simp [hleaf] at hleaf'
      | composite hseed' hplain' he _ hT' hfields =>
        obtain ⟨rfl, rfl⟩ := Repository.plain_unique hseed hplain₀ hseed' hplain'
        obtain rfl := Repository.datatype_unique hd he
        obtain ⟨-, rfl⟩ := Repository.composite_unique hT hT'
        exact hfields

end Step

/-! ## Later repositories -/

/-- An instance of the template can be made, and all that it is made from has been made. -/
structure Repository.Established (r : Repository ts) (id : ObjectId) : Prop where
  grounded : r.Grounded id
  made : ∃ under owned v, ((Step.newInstance id under owned).run r).answer = .ok v

namespace Step

open Repository (Undisturbed)

/-- Elements may be asked for. -/
theorem keeps_undisturbed (x : ObjectId) (index : Nat) :
    Keeps (fun r' => r'.WellFormed ∧ r.Undisturbed r') (element x index) := by
  refine keeps_element ⟨And.left, fun h hgrew => ⟨hgrew.1, h.2.extend hgrew.2⟩⟩ ?_ x index
  intro r₁ r₂ x index v h hgrew _
  exact ⟨hgrew.1.writeElement x index v, (h.2.extend hgrew.2).writeElement x index v⟩

/-- Where an instance could be made of what has been made, it can be made under any path. -/
theorem newInstance_of_established (hr : r.Annotated) {id : ObjectId} (hid : r.Established id)
    (h : r.Undisturbed r') (hr' : r'.WellFormed) (under : String) (owned : Bool) :
    (newInstance id under owned).Ensures r' (fun _ _ => True) fun _ _ => False := by
  obtain ⟨under₀, owned₀, v, hv⟩ := hid.made
  have hmakeable : r.Makeable (r.models.size + 1) id :=
    (newInstance_ensures_iff.mpr (instantiate_makeable hr (.refl r) hr.wellFormed hid.grounded
      owned₀ _ under₀)).ok_of_answer hv
  have hdeeper := hmakeable.of_le (Nat.succ_le_succ h.models_le)
  refine newInstance_ensures_iff.mpr ?_
  exact (instantiate_makeable hr h hr' hid.grounded owned _ under).imp (fun _ _ _ => trivial)
    fun _ _ hno => hno hdeeper

end Step

end Metamodel
