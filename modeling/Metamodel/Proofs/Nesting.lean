import Metamodel.Proofs.Representation
import Metamodel.Proofs.Transparency
import Metamodel.Proofs.Upholding

/-!
# Metamodel.Proofs.Nesting -- the collections that an alias stands for

`resolve` gives the dimensions of a chain of aliases all at once. Instances are nested piece by
piece: the collections of one alias are made together, and those of the next one when an element of
the innermost is asked for. Of each alias only the first qualifier with dimensions counts for
instances, while `resolve` lists them all. Main statement: going down the elements of an instance
one meets one collection for each dimension of these qualifiers, from the outermost alias to the
last one, with the capacities that `resolve` announces.
-/

namespace Metamodel

variable {κ : Type} {ts : TypeSystem κ} {r : Repository ts}

namespace Repository

/-! ## Chains of aliases -/

/-- The aliases on the way from a template to a datatype that is none, each with its qualifiers that
give dimensions. -/
inductive Chain (r : Repository ts) : ObjectId → List (List Qualifier) → ObjectId → Prop
  | plain {t : ObjectId} {m : ModelId} (h : r.IsPlain t m) : Chain r t [] t
  | next {id target t : ObjectId} {qs : List Qualifier} {rest : List (List Qualifier)}
      (h : r.AliasOf id target qs) (hrest : Chain r target rest t) : Chain r id (qs :: rest) t

/-- The dimensions that count for instances: those of the first qualifier of each alias. -/
def countedBounds (chain : List (List Qualifier)) : List Bound :=
  (chain.filterMap List.head?).flatMap Qualifier.bounds

theorem countedBounds_cons_nil (chain : List (List Qualifier)) :
    countedBounds ([] :: chain) = countedBounds chain := by
  rw [countedBounds, List.filterMap_cons_none rfl, countedBounds]

theorem countedBounds_cons_cons (q : Qualifier) (qs : List Qualifier)
    (chain : List (List Qualifier)) :
    countedBounds ((q :: qs) :: chain) = q.bounds ++ countedBounds chain := by
  simp [countedBounds]

/-- Where no alias has more than one qualifier with dimensions, all dimensions count. -/
theorem countedBounds_of_single {chain : List (List Qualifier)}
    (hsingle : ∀ qs ∈ chain, qs.length ≤ 1) :
    countedBounds chain = chain.flatten.flatMap Qualifier.bounds := by
  induction chain with
  | nil => rfl
  | cons qs rest ih =>
    have hrest := ih fun qs' h => hsingle qs' (List.mem_cons_of_mem qs h)
    match qs, hsingle qs List.mem_cons_self with
    | [], _ =>
      rw [countedBounds_cons_nil, hrest]
      rfl
    | [q], _ =>
      rw [countedBounds_cons_cons, hrest]
      simp
    | _ :: _ :: _, hle => simp at hle

/-- A template that is no alias is plain. -/
theorem isPlain_of_template {id : ObjectId} {m : ModelId} (hid : r.assertTemplateKind id = .ok id)
    (hm : r.modelOf id = .ok m) (halias : r.isAlias m = false) : r.IsPlain id m := by
  obtain ⟨-, n, f, d, ho, hd, htemplate⟩ := assertTemplateKind_eq_ok_iff.mp hid
  obtain rfl := Except.ok.inj (hm.symm.trans (modelOf_of_object? ho))
  rw [isAlias_datatype hd] at halias
  exact ⟨f, d, ho, hd, htemplate, halias⟩

/-- What is resolved is the end of a chain, with the qualifiers met on the way. -/
theorem chain_of_resolveWithin {depth : Nat} {id : ObjectId} {resolved : Resolved}
    (hid : r.assertTemplateKind id = .ok id) (h : r.resolveWithin depth id = .ok resolved) :
    ∃ chain, r.Chain id chain resolved.target ∧ resolved.qualifiers = chain.flatten := by
  induction depth generalizing id resolved with
  | zero =>
    obtain ⟨-, m, f, d, ho, -⟩ := assertTemplateKind_eq_ok_iff.mp hid
    have hm : r.modelOf id = .ok m := modelOf_of_object? ho
    rw [resolveWithin_zero hm] at h
    split at h
    · simp at h
    · next halias =>
      obtain rfl := Except.ok.inj h
      exact ⟨[], .plain (isPlain_of_template hid hm (by simpa using halias)), rfl⟩
  | succ depth ih =>
    obtain ⟨-, m, f, d, ho, -⟩ := assertTemplateKind_eq_ok_iff.mp hid
    have hm : r.modelOf id = .ok m := modelOf_of_object? ho
    rw [resolveWithin_succ hm] at h
    split at h
    · next halias =>
      obtain ⟨⟨target, qs⟩, hdefinition, h⟩ := bind_eq_ok_iff.mp h
      obtain ⟨next, hnext, h⟩ := bind_eq_ok_iff.mp h
      obtain ⟨rest, hrest, h⟩ := bind_eq_ok_iff.mp h
      obtain rfl := Except.ok.inj h
      obtain rfl := (assertTemplateKind_eq_ok_iff.mp hnext).1
      obtain ⟨chain, hchain, hqs⟩ := ih hnext hrest
      have hfirst : r.AliasOf id next qs := ⟨hid, m, hm, halias, hdefinition⟩
      exact ⟨qs :: chain, .next hfirst hchain, by rw [hqs, List.flatten_cons]⟩
    · next halias =>
      obtain rfl := Except.ok.inj h
      exact ⟨[], .plain (isPlain_of_template hid hm (by simpa using halias)), rfl⟩

theorem chain_of_resolve {id : ObjectId} {resolved : Resolved} (h : r.resolve id = .ok resolved) :
    ∃ chain, r.Chain id chain resolved.target ∧ resolved.qualifiers = chain.flatten := by
  obtain ⟨x, hid, hresolve⟩ := bind_eq_ok_iff.mp h
  obtain rfl := (assertTemplateKind_eq_ok_iff.mp hid).1
  exact chain_of_resolveWithin hid hresolve

/-! ## The seed of an alias -/

/-- More depth does no harm. -/
theorem seedWithin_mono {depth : Nat} {id : ObjectId} {seed : Seed}
    (hid : r.assertTemplateKind id = .ok id) (h : r.seedWithin depth id = .ok seed) :
    r.seedWithin (depth + 1) id = .ok seed := by
  induction depth generalizing id with
  | zero =>
    obtain ⟨-, m, f, d, ho, -⟩ := assertTemplateKind_eq_ok_iff.mp hid
    have hm : r.modelOf id = .ok m := modelOf_of_object? ho
    rw [seedWithin_zero hm] at h
    rw [seedWithin_succ hm]
    split at h
    · simp at h
    · next halias => rw [if_neg halias, h]
  | succ depth ih =>
    obtain ⟨-, m, f, d, ho, -⟩ := assertTemplateKind_eq_ok_iff.mp hid
    have hm : r.modelOf id = .ok m := modelOf_of_object? ho
    rw [seedWithin_succ hm] at h ⊢
    split at h
    · next halias =>
      rw [if_pos halias]
      obtain ⟨⟨target, qs⟩, hdefinition, h⟩ := bind_eq_ok_iff.mp h
      refine bind_eq_ok_iff.mpr ⟨(target, qs), hdefinition, ?_⟩
      cases qs with
      | cons q qs => exact h
      | nil =>
        obtain ⟨next, hnext, hrest⟩ := bind_eq_ok_iff.mp h
        obtain rfl := (assertTemplateKind_eq_ok_iff.mp hnext).1
        exact bind_eq_ok_iff.mpr ⟨_, hnext, ih hnext hrest⟩
    · next halias => rw [if_neg halias, h]

namespace AliasOf

variable {id target : ObjectId} {qs : List Qualifier} {seed : Seed}

/-- The first qualifier of an alias is the one that instances are made with. -/
theorem seed_cons {q : Qualifier} (h : r.AliasOf id target (q :: qs))
    (hseed : r.seed id = .ok seed) : seed = .nested target q := by
  rw [seed_of_template h.template] at hseed
  cases hlimit : ts.limits.aliasDepth with
  | zero =>
    obtain ⟨m, hm, halias, -⟩ := h.definition
    simp [hlimit, seedWithin_zero hm, halias] at hseed
  | succ depth =>
    rw [hlimit, h.seedWithin_cons] at hseed
    exact (Except.ok.inj hseed).symm

/-- An alias without dimensions has the seed of what it refers to. -/
theorem seed_nil (h : r.AliasOf id target []) (hseed : r.seed id = .ok seed) :
    r.seed target = .ok seed := by
  rw [seed_of_template h.template] at hseed
  cases hlimit : ts.limits.aliasDepth with
  | zero =>
    obtain ⟨m, hm, halias, -⟩ := h.definition
    simp [hlimit, seedWithin_zero hm, halias] at hseed
  | succ depth =>
    rw [hlimit, h.seedWithin_nil] at hseed
    obtain ⟨next, hnext, hrest⟩ := bind_eq_ok_iff.mp hseed
    obtain rfl := (assertTemplateKind_eq_ok_iff.mp hnext).1
    rw [seed_of_template hnext, hlimit]
    exact seedWithin_mono hnext hrest

end AliasOf

end Repository

namespace Step

/-! ## Going down the elements -/

/-- Asking for the first element again and again one comes to a value that is no collection, over
collections of these capacities. -/
inductive Descends : Repository ts → Value → List (Option Nat) → Prop
  | leaf {r : Repository ts} {v : Value} (hleaf : ∀ id, v ≠ .collection id) : Descends r v []
  | level {r : Repository ts} {id : ObjectId} {capacity : Option Nat} {v : Value}
      {inner : List (Option Nat)} (hcapacity : r.capacity id = .ok capacity)
      (hv : ((element id 1).run r).answer = .ok v)
      (hinner : Descends ((element id 1).run r).repo v inner) :
      Descends r (.collection id) (capacity :: inner)

/-- The first element of a collection without elements is a copy of what its shape names. -/
theorem element_empty {id : ObjectId} {s : Shape} {v : Value} (hs : r.shape id = .ok s)
    (hempty : r.elements? id = some Table.empty)
    (hv : ((element id 1).run r).answer = .ok v) :
    ∃ content path owned, r.valueOf s.element = .ok content ∧
      ((cloneValue content path owned).run r).answer = .ok v ∧
      ((element id 1).run r).repo =
        ((cloneValue content path owned).run r).repo.writeElement id 1 v := by
  have hmade : (element id 1).Ensures r (fun v r' => ∃ content path owned,
      r.valueOf s.element = .ok content ∧
      ((cloneValue content path owned).run r).answer = .ok v ∧
      r' = ((cloneValue content path owned).run r).repo.writeElement id 1 v)
      fun _ _ => True := by
    apply element_ensures
    case hrefused => exact fun _ => trivial
    case hpresent =>
      intro w hw
      simp [hempty] at hw
    case hmake =>
      intro s' content hs' hcontent
      obtain rfl := Except.ok.inj (hs.symm.trans hs')
      refine ensures_of_answer (fun w hw => ?_) fun _ _ => trivial
      exact ⟨content, _, _, hcontent, hw, rfl⟩
  exact hmade.ok_of_answer hv

end Step

namespace Idl

open Repository Step

variable {limits : Limits} {r r' r'' : Repository (system limits)}

/-! ## The repositories on the way down -/

/-- From `r` to `r'` collections were added and elements were made, and nothing else. -/
structure Opens (r r' : Repository (system limits)) : Prop where
  upholds : Upholds r r'
  composite : ∀ {id m f}, r'.object? id = some (.composite m f) →
    r.object? id = some (.composite m f)

namespace Opens

theorem refl (hr : r.WellFormed) : Opens r r := ⟨.refl hr, fun h => h⟩

theorem trans (h : Opens r r') (h' : Opens r' r'') : Opens r r'' :=
  ⟨h.upholds.trans h'.upholds, fun ho => h.composite (h'.composite ho)⟩

/-- Collections may be added. -/
theorem of_grew (h : Grew r r') (hold : OldComposites r r') : Opens r r' where
  upholds := upholds_of_grew h
  composite ho := by
    rw [← h.2.object? (hold _ _ _ ho)]
    exact ho

theorem writeElement (hr : r.WellFormed) (id : ObjectId) (index : Nat) (v : Value) :
    Opens r (r.writeElement id index v) :=
  ⟨upholds_writeElement hr id index v, fun ho => composite_writeElement.mp ho⟩

/-- A bound had the capacity that it has, since no constant is new. -/
theorem resolveBound (h : Opens r r') (hr : r.WellFormed) {bound : Bound} {capacity : Option Nat}
    (hbound : r'.resolveBound bound = .ok capacity) : r.resolveBound bound = .ok capacity := by
  cases bound with
  | unbounded => exact hbound
  | size n => exact hbound
  | constant id =>
    obtain ⟨m, n, hm, hn, hcapacity⟩ := resolveBound_constant_eq_ok_iff.mp hbound
    obtain ⟨o, ho, rfl⟩ := modelOf?_eq_some_iff.mp hm
    cases o with
    | composite m f =>
      have hold := h.composite ho
      obtain ⟨d, hd⟩ := hr.composite hold
      have hvalue := h.upholds.value hd
      exact resolveBound_constant_eq_ok_iff.mpr
        ⟨m, n, modelOf?_of_object? hold, hvalue.symm.trans hn, hcapacity⟩
    | collection m es =>
      -- A collection declares no value.
      obtain ⟨s, hs, -⟩ := h.upholds.wellFormed.collection ho
      simp [entriesOf, Object.model, hs, Model.entries, Model.datatype?] at hn

theorem aliasOf (h : Opens r r') (hr : r.WellFormed) {id target : ObjectId} {qs : List Qualifier}
    (halias : r.AliasOf id target qs) : r'.AliasOf id target qs := by
  obtain ⟨htemplate, m, hm, ha, hdefinition⟩ := halias
  obtain ⟨-, n, f, d, ho, hd, -⟩ := assertTemplateKind_eq_ok_iff.mp htemplate
  obtain rfl := Except.ok.inj (hm.symm.trans (modelOf_of_object? ho))
  exact ⟨h.upholds.assertTemplateKind htemplate, m, h.upholds.modelOf hm,
    (h.upholds.isAlias hd).trans ha, h.upholds.aliasDefinition hr ha hdefinition⟩

end Opens

/-! ## Level by level -/

/-- A collection of which no element has been made, nested like this. -/
structure Unopened (r : Repository (system limits)) (element : ObjectId)
    (capacities : List (Option Nat)) (id : ObjectId) : Prop where
  nests : ∃ name, r.Nests element capacities name id
  empty : r.elements? id = some Table.empty

theorem Unopened.later {element id : ObjectId} {cs : List (Option Nat)}
    (h : Unopened r element cs id) (hpreserves : r.Preserves r')
    (hobject : r'.object? id = r.object? id) : Unopened r' element cs id where
  nests := by
    obtain ⟨name, hnests⟩ := h.nests
    exact ⟨name, hnests.preserves hpreserves⟩
  empty := by
    rw [elements?, hobject]
    exact h.empty

/-- The collections of an alias are made, and none of their elements. -/
theorem newCollections_unopened (hr : r.WellFormed) (target : ObjectId) (q : Qualifier)
    (name : String) (owned : Bool) :
    (newCollections target q name owned).Ensures r
      (fun id r' => Opens r r' ∧ r.objects.size ≤ id.index ∧
        ∃ cs, cs ≠ [] ∧ r.capacities q = .ok cs ∧ Unopened r' target cs id)
      fun _ _ => True := by
  refine ((newCollections_makes hr target q name owned).and
    (newCollections_hasForm hr target q name owned)).imp ?_ fun _ _ _ => trivial
  rintro id r' ⟨⟨hgrew, hloose, hold⟩, form, hform, hid⟩
  obtain ⟨-, cs, hcs, rfl⟩ := nestedForm_ok_iff.mp hform
  have hnew : r.objects.size ≤ id.index := hloose.new id rfl
  obtain ⟨m, es, ho⟩ := hloose.denotes
  obtain rfl := hgrew.2.empty_new ho hnew
  cases hid with
  | nested hne hnests =>
    exact ⟨.of_grew hgrew hold, hnew, cs, hne, hcs, ⟨name, hnests⟩,
      elements?_eq_some_iff.mpr ⟨m, ho⟩⟩

/-- Below the outermost of several collections there is a copy of the next one. -/
theorem copy_unopened (hr : r.WellFormed) {target source : ObjectId} {c : Option Nat}
    {cs : List (Option Nat)} {name : String} (hsource : r.Nests target (c :: cs) name source)
    (path : String) (owned : Bool) {v : Value}
    (hv : ((cloneValue (.collection source) path owned).run r).answer = .ok v) :
    ∃ id, v = .collection id ∧ r.objects.size ≤ id.index ∧
      Opens r ((cloneValue (.collection source) path owned).run r).repo ∧
      Unopened ((cloneValue (.collection source) path owned).run r).repo target (c :: cs) id := by
  obtain ⟨s, hs, -, hcapacity, hinner⟩ := hsource
  have hcopy : (cloneValue (.collection source) path owned).Ensures r
      (fun v r' => ∃ id, v = .collection id ∧ r.objects.size ≤ id.index ∧ Opens r r' ∧
        Unopened r' target (c :: cs) id) fun _ _ => False := by
    rw [cloneValue, cloneWith, ensures_map]
    refine (copyCollection_ensures hr hs path owned).imp ?_ fun _ _ h => h
    rintro id r' ⟨hgrew, hloose, hold, t, ht, hname, helement, htcapacity⟩
    have hnew : r.objects.size ≤ id.index := hloose.new id rfl
    obtain ⟨m, es, ho⟩ := hloose.denotes
    obtain rfl := hgrew.2.empty_new ho hnew
    have hnests : r'.Nests target (c :: cs) t.name id :=
      ⟨t, ht, rfl, htcapacity.trans hcapacity, helement ▸ hinner.preserves hgrew.2.preserves⟩
    exact ⟨id, rfl, hnew, .of_grew hgrew hold, ⟨_, hnests⟩, elements?_eq_some_iff.mpr ⟨m, ho⟩⟩
  exact hcopy.ok_of_answer hv

/-- Writing an element of an old collection leaves what is new alone. -/
theorem object?_writeElement_new {r₁ : Repository (system limits)} {id a : ObjectId} {s : Shape}
    (hs : r₁.shape id = .ok s) (ha : r₁.objects.size ≤ a.index) (index : Nat) (v : Value) :
    (r.writeElement id index v).object? a = r.object? a := by
  obtain ⟨m, es, ho, -⟩ := shape_eq_ok_iff.mp hs
  have hne : a ≠ id := by
    rintro rfl
    exact Nat.not_lt_of_le ha (index_lt_of_object? ho)
  rw [object?_writeElement, if_neg hne]

/-- Whatever is made of the template in a later repository goes down over these dimensions. -/
def GoesDown (r : Repository (system limits)) (id : ObjectId) (bounds : List Bound) : Prop :=
  ∀ {r₁ r₂ : Repository (system limits)} {under owned v capacities}, Opens r r₁ →
    ((newInstance id under owned).run r₁).answer = .ok v →
    Opens ((newInstance id under owned).run r₁).repo r₂ →
    (∀ a, r₁.objects.size ≤ a.index →
      r₂.object? a = ((newInstance id under owned).run r₁).repo.object? a) →
    Descends r₂ v capacities →
    List.Forall₂ (fun bound capacity => r.resolveBound bound = .ok capacity) bounds capacities

/-- The collections of one alias are met one after the other, and then what it refers to. -/
theorem descends_unopened {target : ObjectId} {bounds : List Bound}
    (htemplate : r.assertTemplateKind target = .ok target) (htarget : GoesDown r target bounds)
    {cs : List (Option Nat)} (hne : cs ≠ []) {r₁ : Repository (system limits)} {id : ObjectId}
    {capacities : List (Option Nat)} (h : Opens r r₁) (hid : Unopened r₁ target cs id)
    (hdown : Descends r₁ (.collection id) capacities) :
    ∃ inner, capacities = cs ++ inner ∧
      List.Forall₂ (fun bound capacity => r.resolveBound bound = .ok capacity) bounds inner := by
  induction cs generalizing r₁ id capacities with
  | nil => exact (hne rfl).elim
  | cons c cs ih =>
    cases hdown with
    | leaf hleaf => exact (hleaf id rfl).elim
    | @level _ _ capacity v inner hcapacity hv hinner =>
      obtain ⟨name, s, hs, -, rfl, hnests⟩ := hid.nests
      obtain rfl : s.capacity = capacity := by
        rw [Repository.capacity, hs] at hcapacity
        exact Except.ok.inj hcapacity
      obtain ⟨content, path, owned, hcontent, hclone, hrepo⟩ := element_empty hs hid.empty hv
      have hwf : ((cloneValue content path owned).run r₁).repo.WellFormed :=
        (Ensures.imp (cloneValue_makes h.upholds.wellFormed content path owned)
          (fun _ _ h => h.1.1) fun _ _ h => h.1).repo
      have hwrite := Opens.writeElement hwf id 1 v
      rw [hrepo] at hinner
      cases cs with
      | nil =>
        -- The innermost collection holds what the alias refers to.
        obtain rfl : s.element = target := hnests
        obtain ⟨-, m, f, d, ho, -⟩ :=
          assertTemplateKind_eq_ok_iff.mp (h.upholds.assertTemplateKind htemplate)
        obtain rfl : Value.composite s.element = content := by
          rw [valueOf, object_eq_ok_iff.mpr ho] at hcontent
          exact Except.ok.inj hcontent
        refine ⟨inner, rfl, htarget h hclone hwrite (fun a ha => ?_) hinner⟩
        exact object?_writeElement_new hs ha 1 v
      | cons c' cs =>
        rw [hnests.valueOf (List.cons_ne_nil c' cs)] at hcontent
        obtain rfl := Except.ok.inj hcontent
        obtain ⟨x, rfl, hx, hopens, hunopened⟩ :=
          copy_unopened h.upholds.wellFormed hnests path owned hclone
        have hlater := hunopened.later hwrite.upholds.preserves
          (object?_writeElement_new hs hx 1 (.collection x))
        obtain ⟨rest, rfl, hrest⟩ :=
          ih (List.cons_ne_nil c' cs) ((h.trans hopens).trans hwrite) hlater hinner
        exact ⟨rest, rfl, hrest⟩

/-- A chain of aliases goes down over the dimensions that count. -/
theorem goesDown_of_chain (hr : r.WellFormed) {id t : ObjectId} {chain : List (List Qualifier)}
    (hchain : r.Chain id chain t) : GoesDown r id (countedBounds chain) := by
  induction hchain with
  | plain hplain =>
    intro r₁ r₂ under owned v capacities h hv _ _ hdown
    have hseed := (h.upholds.retainsAliases hr).seed hplain.seed
    have hleaf := (newInstance_of_plain hseed).ok_of_answer hv
    cases hdown with
    | leaf _ => exact List.Forall₂.nil
    | level _ _ _ => exact (hleaf _ rfl).elim
  | @next id target t qs rest halias hrest ih =>
    intro r₁ r₂ under owned v capacities h hv hafter hnew hdown
    have halias' := h.aliasOf hr halias
    obtain ⟨seed, hseed⟩ : ∃ seed, r₁.seed id = .ok seed := by
      cases hseed : r₁.seed id with
      | ok seed => exact ⟨seed, rfl⟩
      | error e => simp [run_newInstance_of_error hseed] at hv
    cases qs with
    | nil =>
      have htarget := halias'.seed_nil hseed
      have hrun : (newInstance id under owned).run r₁ = (newInstance target under owned).run r₁ :=
        run_newInstance_of_seed (hseed.trans htarget.symm)
      rw [hrun] at hv hafter hnew
      rw [countedBounds_cons_nil]
      exact ih h hv hafter hnew hdown
    | cons q qs =>
      obtain rfl := halias'.seed_cons hseed
      obtain ⟨c, rfl, hc, hrepo⟩ := answer_of_nested hseed hv
      obtain ⟨hopens, hold, cs, hne, hcs, hunopened⟩ :=
        (newCollections_unopened h.upholds.wellFormed target q under owned).ok_of_answer hc
      rw [hrepo] at hopens hunopened
      have hlater := hunopened.later hafter.upholds.preserves (hnew c hold)
      have htemplate : r.assertTemplateKind target = .ok target := by
        cases hrest with
        | plain hplain => exact hplain.assertTemplateKind
        | next hnext _ => exact hnext.template
      obtain ⟨inner, rfl, hinner⟩ := descends_unopened htemplate ih hne
        ((h.trans hopens).trans hafter) hlater hdown
      rw [countedBounds_cons_cons]
      refine List.rel_append ?_ hinner
      exact (forall₂_of_capacities hcs).imp fun _ _ => h.resolveBound hr

/-! ## Reached repositories -/

/-- In every state of every run: where an alias resolves and an instance of it is made, going down
the first elements one meets one collection for each dimension that counts, with its capacity, the
outermost first. The dimensions that count are those of the first qualifier of each alias on the
chain; they are all that `resolve` lists if no alias has more than one qualifier with dimensions. -/
theorem nesting_of_reached (limits : Limits) (operations : List Operation) :
    let r := Operation.run (initial limits) operations
    ∀ {id resolved under owned v capacities}, r.resolve id = .ok resolved →
      ((newInstance id under owned).run r).answer = .ok v →
      Descends ((newInstance id under owned).run r).repo v capacities →
      ∃ chain, r.Chain id chain resolved.target ∧ resolved.qualifiers = chain.flatten ∧
        List.Forall₂ (fun bound capacity => r.resolveBound bound = .ok capacity)
          (countedBounds chain) capacities ∧
        ((∀ qs ∈ chain, qs.length ≤ 1) →
          List.Forall₂ (fun bound capacity => r.resolveBound bound = .ok capacity)
            (resolved.qualifiers.flatMap Qualifier.bounds) capacities) := by
  intro r id resolved under owned v capacities hresolve hv hdown
  have hr : r.WellFormed := Operation.wellFormed_run limits operations
  have hmade : ((newInstance id under owned).run r).repo.WellFormed :=
    (Ensures.imp (newInstance_makes hr id under owned) (fun _ _ h => h.1.1) fun _ _ h => h.1).repo
  obtain ⟨chain, hchain, hqualifiers⟩ := chain_of_resolve hresolve
  have hdimensions := goesDown_of_chain hr hchain (.refl hr) hv (.refl hmade) (fun _ _ => rfl) hdown
  refine ⟨chain, hchain, hqualifiers, hdimensions, fun hsingle => ?_⟩
  rw [hqualifiers, ← countedBounds_of_single hsingle]
  exact hdimensions

/-- An alias of an alias with two dimensions and one: there are three levels. -/
theorem nesting_grid :
    let rename := Operation.newTypedef
    let r := Operation.run (initial ⟨4, 4⟩)
      [rename "Grid" Atom.long.template [array [.size 2, .unbounded]],
        rename "Grids" ⟨21⟩ [sequence (.size 4)]]
    let made := (newInstance ⟨22⟩ "g" false).run r
    ∃ chain, r.Chain ⟨22⟩ chain Atom.long.template ∧
      List.Forall₂ (fun bound capacity => r.resolveBound bound = .ok capacity)
        (countedBounds chain) [some 4, some 2, none] ∧
      made.answer = .ok (.collection ⟨23⟩) := by
  intro rename r made
  have hresolve : r.resolve ⟨22⟩ =
      .ok ⟨[sequence (.size 4), array [.size 2, .unbounded]], Atom.long.template⟩ := by
    decide +kernel
  have hmade : made.answer = .ok (.collection ⟨23⟩) := by decide +kernel
  have hgrids : ((element ⟨23⟩ 1).run made.repo).answer = .ok (.collection ⟨25⟩) := by
    decide +kernel
  have hrow : ((element ⟨25⟩ 1).run ((element ⟨23⟩ 1).run made.repo).repo).answer =
      .ok (.collection ⟨26⟩) := by
    decide +kernel
  have hcell : ((element ⟨26⟩ 1).run ((element ⟨25⟩ 1).run
      ((element ⟨23⟩ 1).run made.repo).repo).repo).answer = .ok (.accessor "g[1][1][1]") := by
    decide +kernel
  have hdown : Descends made.repo (.collection ⟨23⟩) [some 4, some 2, none] :=
    .level (by decide +kernel) hgrids (.level (by decide +kernel) hrow
      (.level (by decide +kernel) hcell (.leaf fun id => by simp)))
  obtain ⟨chain, hchain, -, hdimensions, -⟩ := nesting_of_reached ⟨4, 4⟩ _ hresolve hmade hdown
  exact ⟨chain, hchain, hdimensions, hmade⟩

/-- Of two qualifiers of one alias `resolve` lists both, and instances have the first. -/
theorem one_level_of_two :
    let rename := Operation.newTypedef
    let r := Operation.run (initial ⟨4, 4⟩)
      [rename "X" Atom.long.template [sequence (.size 3), array [.size 2]]]
    let made := (newInstance ⟨21⟩ "x" false).run r
    r.resolve ⟨21⟩ = .ok ⟨[sequence (.size 3), array [.size 2]], Atom.long.template⟩ ∧
      made.answer = .ok (.collection ⟨22⟩) ∧ Descends made.repo (.collection ⟨22⟩) [some 3] ∧
      ¬ List.Forall₂ (fun bound capacity => r.resolveBound bound = .ok capacity)
        ([sequence (.size 3), array [.size 2]].flatMap Qualifier.bounds) [some 3] := by
  intro rename r made
  have helement : ((element ⟨22⟩ 1).run made.repo).answer = .ok (.accessor "x[1]") := by
    decide +kernel
  refine ⟨by decide +kernel, by decide +kernel, ?_, ?_⟩
  · exact .level (by decide +kernel) helement (.leaf fun id => by simp)
  · intro h
    have hlength := h.length_eq
    revert hlength
    decide

end Idl

end Metamodel
