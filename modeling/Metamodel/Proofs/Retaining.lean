import Metamodel.Proofs.Forms

/-!
# Metamodel.Proofs.Retaining -- look-ups that keep their answer

What is made from a template depends on the datatypes on the way to it: on their kinds, on what
aliases are declared to stand for, and on the constants among the dimensions. Main statement: where
these are retained, every look-up that succeeds gives the same answer afterwards, and with it each
form of an instance. What fails before may succeed afterwards.
-/

namespace Metamodel.Repository

variable {κ : Type} {ts : TypeSystem κ} {r r' : Repository ts}

/-- Everything lasts, and datatypes keep their kind, their template and the value that they declare.
-/
structure Retains (r r' : Repository ts) : Prop where
  preserves : r.Preserves r'
  datatype : ∀ {m d}, r.model? m = some (.datatype d) →
    ∃ d', r'.model? m = some (.datatype d') ∧ d'.kind = d.kind ∧ d'.template = d.template
  value : ∀ {m d}, r.model? m = some (.datatype d) →
    (r'.entriesOf m).findSome? Entry.scalar? = (r.entriesOf m).findSome? Entry.scalar?

namespace Retains

variable (h : r.Retains r')

include h

theorem kindOf? {m : ModelId} {k : κ} (hk : r.kindOf? m = some k) : r'.kindOf? m = some k := by
  obtain ⟨d, hd, rfl⟩ := kindOf?_eq_some_iff.mp hk
  obtain ⟨d', hd', hkind, -⟩ := h.datatype hd
  exact kindOf?_eq_some_iff.mpr ⟨d', hd', hkind⟩

theorem kindOf?_eq {m : ModelId} {d : Datatype κ} (hd : r.model? m = some (.datatype d)) :
    r'.kindOf? m = r.kindOf? m := by
  have hk : r.kindOf? m = some d.kind := kindOf?_eq_some_iff.mpr ⟨d, hd, rfl⟩
  rw [h.kindOf? hk, hk]

theorem isAlias {m : ModelId} {d : Datatype κ} (hd : r.model? m = some (.datatype d)) :
    r'.isAlias m = r.isAlias m := by
  rw [Repository.isAlias, Repository.isAlias, h.kindOf?_eq hd]

theorem modelOf {id : ObjectId} {m : ModelId} (hm : r.modelOf id = .ok m) :
    r'.modelOf id = .ok m :=
  modelOf_eq_ok_iff.mpr (h.preserves.modelOf? (modelOf_eq_ok_iff.mp hm))

theorem kind? {id : ObjectId} {k : κ} (hk : r.kind? id = some k) : r'.kind? id = some k := by
  obtain ⟨m, hm, hk⟩ := Option.bind_eq_some_iff.mp hk
  exact Option.bind_eq_some_iff.mpr ⟨m, h.preserves.modelOf? hm, h.kindOf? hk⟩

theorem assertTemplateKind {id x : ObjectId} (hid : r.assertTemplateKind id = .ok x) :
    r'.assertTemplateKind id = .ok x := by
  obtain ⟨rfl, m, f, d, ho, hd, ht⟩ := assertTemplateKind_eq_ok_iff.mp hid
  obtain ⟨f', ho'⟩ := (h.preserves _ _ ho).composite ho
  obtain ⟨d', hd', hk, -⟩ := h.datatype hd
  exact assertTemplateKind_eq_ok_iff.mpr ⟨rfl, m, f', d', ho', hd', hk ▸ ht⟩

theorem isPlain {id : ObjectId} {m : ModelId} (hid : r.IsPlain id m) : r'.IsPlain id m := by
  obtain ⟨f, d, ho, hd, ht, ha⟩ := hid
  obtain ⟨f', ho'⟩ := (h.preserves _ _ ho).composite ho
  obtain ⟨d', hd', hk, -⟩ := h.datatype hd
  exact ⟨f', d', ho', hd', hk ▸ ht, hk ▸ ha⟩

/-! ## Dimensions -/

theorem resolveBound {bound : Bound} {capacity : Option Nat}
    (hbound : r.resolveBound bound = .ok capacity) : r'.resolveBound bound = .ok capacity := by
  cases bound with
  | unbounded => exact hbound
  | size n => exact hbound
  | constant id =>
    obtain ⟨m, n, hm, hn, hcapacity⟩ := resolveBound_constant_eq_ok_iff.mp hbound
    -- Only datatypes declare a value.
    obtain ⟨d, hd⟩ : ∃ d, r.model? m = some (.datatype d) := by
      cases hmodel : r.model? m with
      | none => simp [Repository.entriesOf, hmodel] at hn
      | some model =>
        cases model with
        | shape s => simp [Repository.entriesOf, hmodel, Model.entries, Model.datatype?] at hn
        | datatype d => exact ⟨d, rfl⟩
    exact resolveBound_constant_eq_ok_iff.mpr
      ⟨m, n, h.preserves.modelOf? hm, (h.value hd).trans hn, hcapacity⟩

theorem checkContent {element : ObjectId} (hcontent : r.checkContent element = .ok ()) :
    r'.checkContent element = .ok () := by
  rw [checkContent_eq_ok_iff] at hcontent ⊢
  refine hcontent.imp ?_ h.assertTemplateKind
  rintro ⟨m, es, ho⟩
  obtain ⟨es', ho'⟩ := (h.preserves _ _ ho).collection ho
  exact ⟨m, es', ho'⟩

theorem nestedForm {element : ObjectId} {q : Qualifier} {name : String} {form : Form}
    (hform : r.nestedForm element q name = .ok form) :
    r'.nestedForm element q name = .ok form := by
  obtain ⟨hcontent, cs, hcs, rfl⟩ := nestedForm_ok_iff.mp hform
  refine nestedForm_ok_iff.mpr ⟨h.checkContent hcontent, cs, ?_, rfl⟩
  obtain ⟨bounds, hbounds, hlimit⟩ := bind_eq_ok_iff.mp hcs
  refine bind_eq_ok_iff.mpr ⟨bounds, ?_, hlimit⟩
  exact mapM_eq_ok_iff.mpr ((mapM_eq_ok_iff.mp hbounds).imp fun _ _ => h.resolveBound)

end Retains

/-! ## Chains of aliases -/

/-- Besides, what an alias is defined to be it stays. -/
structure RetainsAliases (r r' : Repository ts) : Prop extends Retains r r' where
  aliasDefinition : ∀ {m definition}, r.isAlias m = true →
    r.aliasDefinition m = .ok definition → r'.aliasDefinition m = .ok definition

namespace RetainsAliases

variable (h : r.RetainsAliases r')

include h

/-- A chain of aliases that ends comes to the same composite, which was there. -/
theorem resolveWithin {depth : Nat} {id : ObjectId} {resolved : Resolved}
    (hid : r.assertTemplateKind id = .ok id) (hres : r.resolveWithin depth id = .ok resolved) :
    r'.resolveWithin depth id = .ok resolved ∧
      r.assertTemplateKind resolved.target = .ok resolved.target := by
  induction depth generalizing id resolved with
  | zero =>
    obtain ⟨-, m, f, d, ho, hd, -⟩ := assertTemplateKind_eq_ok_iff.mp hid
    have hm : r.modelOf id = .ok m := modelOf_of_object? ho
    rw [resolveWithin_zero hm] at hres
    rw [resolveWithin_zero (h.modelOf hm), h.isAlias hd]
    split at hres
    · simp at hres
    · next ha =>
      obtain rfl := Except.ok.inj hres
      exact ⟨if_neg ha, hid⟩
  | succ depth ih =>
    obtain ⟨-, m, f, d, ho, hd, -⟩ := assertTemplateKind_eq_ok_iff.mp hid
    have hm : r.modelOf id = .ok m := modelOf_of_object? ho
    rw [resolveWithin_succ hm] at hres
    rw [resolveWithin_succ (h.modelOf hm), h.isAlias hd]
    split at hres
    · next ha =>
      rw [if_pos ha]
      obtain ⟨definition, hdef, hres⟩ := bind_eq_ok_iff.mp hres
      obtain ⟨next, hnext, hres⟩ := bind_eq_ok_iff.mp hres
      obtain ⟨rest, hrest, hres⟩ := bind_eq_ok_iff.mp hres
      obtain rfl := Except.ok.inj hres
      obtain rfl := (assertTemplateKind_eq_ok_iff.mp hnext).1
      obtain ⟨hrest', htarget⟩ := ih hnext hrest
      refine ⟨bind_eq_ok_iff.mpr ⟨definition, h.aliasDefinition ha hdef, ?_⟩, htarget⟩
      refine bind_eq_ok_iff.mpr ⟨_, h.assertTemplateKind hnext, ?_⟩
      exact bind_eq_ok_iff.mpr ⟨rest, hrest', rfl⟩
    · next ha =>
      obtain rfl := Except.ok.inj hres
      exact ⟨if_neg ha, hid⟩

theorem resolve {id : ObjectId} {resolved : Resolved} (hres : r.resolve id = .ok resolved) :
    r'.resolve id = .ok resolved ∧
      r.assertTemplateKind resolved.target = .ok resolved.target := by
  obtain ⟨x, hid, hwithin⟩ := bind_eq_ok_iff.mp hres
  obtain rfl := (assertTemplateKind_eq_ok_iff.mp hid).1
  obtain ⟨hwithin', htarget⟩ := h.resolveWithin hid hwithin
  exact ⟨bind_eq_ok_iff.mpr ⟨x, h.assertTemplateKind hid, hwithin'⟩, htarget⟩

theorem seedWithin {depth : Nat} {id : ObjectId} {seed : Seed}
    (hid : r.assertTemplateKind id = .ok id) (hseed : r.seedWithin depth id = .ok seed) :
    r'.seedWithin depth id = .ok seed := by
  induction depth generalizing id with
  | zero =>
    obtain ⟨-, m, f, d, ho, hd, -⟩ := assertTemplateKind_eq_ok_iff.mp hid
    have hm : r.modelOf id = .ok m := modelOf_of_object? ho
    rw [seedWithin_zero hm] at hseed
    rwa [seedWithin_zero (h.modelOf hm), h.isAlias hd]
  | succ depth ih =>
    obtain ⟨-, m, f, d, ho, hd, -⟩ := assertTemplateKind_eq_ok_iff.mp hid
    have hm : r.modelOf id = .ok m := modelOf_of_object? ho
    rw [seedWithin_succ hm] at hseed
    rw [seedWithin_succ (h.modelOf hm), h.isAlias hd]
    split at hseed
    · next ha =>
      rw [if_pos ha]
      obtain ⟨⟨target, qualifiers⟩, hdef, hseed⟩ := bind_eq_ok_iff.mp hseed
      refine bind_eq_ok_iff.mpr ⟨(target, qualifiers), h.aliasDefinition ha hdef, ?_⟩
      cases qualifiers with
      | cons q qs => exact hseed
      | nil =>
        obtain ⟨next, hnext, hrest⟩ := bind_eq_ok_iff.mp hseed
        obtain rfl := (assertTemplateKind_eq_ok_iff.mp hnext).1
        exact bind_eq_ok_iff.mpr ⟨_, h.assertTemplateKind hnext, ih hnext hrest⟩
    · next ha => rw [if_neg ha, hseed]

theorem seed {id : ObjectId} {seed : Seed} (hseed : r.seed id = .ok seed) :
    r'.seed id = .ok seed := by
  obtain ⟨x, hid, hwithin⟩ := bind_eq_ok_iff.mp hseed
  obtain rfl := (assertTemplateKind_eq_ok_iff.mp hid).1
  exact bind_eq_ok_iff.mpr ⟨x, h.assertTemplateKind hid, h.seedWithin hid hwithin⟩

theorem instanceForm {template : ObjectId} {under : String} {form : Form}
    (hform : r.instanceForm template under = .ok form) :
    r'.instanceForm template under = .ok form := by
  obtain ⟨seed, hseed, hform⟩ := bind_eq_ok_iff.mp hform
  refine bind_eq_ok_iff.mpr ⟨seed, h.seed hseed, ?_⟩
  cases seed with
  | nested element q => exact h.nestedForm hform
  | plain t =>
    obtain ⟨m, hm, hform⟩ := bind_eq_ok_iff.mp hform
    obtain ⟨⟨n, f, d, ho, hd, -⟩, -⟩ := seed_plain hseed
    obtain rfl := Except.ok.inj (hm.symm.trans (modelOf_of_object? ho))
    refine bind_eq_ok_iff.mpr ⟨m, h.modelOf hm, ?_⟩
    rw [Repository.isLeaf, h.kindOf?_eq hd, (h.preserves _ _ ho).registeredName]
    exact hform

end RetainsAliases

end Metamodel.Repository
