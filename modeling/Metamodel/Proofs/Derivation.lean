import Metamodel.Proofs.Inheritance
import Metamodel.Proofs.Rejection

/-!
# Metamodel.Proofs.Derivation -- which structures derive from which

A structure derives from the datatype that its base is bound to. Before a structure gets a base, the
bases that follow from there on are searched for its template, object by object; an instance of the
structure, which may stand as a base as well, is not recognized. Main statement: no structure ever
derives from itself, as long as none gets a base while another one is based on an instance of it.
-/

namespace Metamodel.Idl

open Relation (ReflTransGen TransGen)
open Step (ensures_bind ensures_query ensures_ask ensures_edit ensures_note ensures_pure)

variable {limits : Limits} {r r' r'' : Repository (system limits)} {M : ModelId → Prop}
  {m n : ModelId}

/-! ## Deriving -/

/-- The base of the structures of the first datatype is bound to the second one. -/
def Derives (r : Repository (system limits)) (m n : ModelId) : Prop :=
  ∃ id base, r.modelOf? id = some m ∧ baseOf id r = some base ∧ r.modelOf? base = some n

/-- A base is looked up in the declaration of a structure. -/
theorem baseOf_eq_some_iff {id base : ObjectId} :
    baseOf id r = some base ↔ ∃ m d, r.modelOf? id = some m ∧ r.model? m = some (.datatype d) ∧
      d.kind = .struct ∧ Entry.base? d.entries = some base := by
  unfold baseOf Repository.kind?
  cases hm : r.modelOf? id with
  | none => simp
  | some m =>
    cases hmodel : r.model? m with
    | none => simp [Repository.kindOf?, hmodel]
    | some model =>
      cases model with
      | shape s => simp [Repository.kindOf?, hmodel, Model.kind?, Model.datatype?]
      | datatype d =>
        simp [Repository.kindOf?, Repository.entriesOf, hmodel, Model.kind?, Model.entries,
          Model.datatype?]

/-- Objects that are bound to the same datatype have the same base. -/
theorem baseOf_congr {a b : ObjectId} (h : r.modelOf? a = r.modelOf? b) :
    baseOf a r = baseOf b r := by
  unfold baseOf Repository.kind?
  rw [h]

theorem index_lt_of_baseOf {id base : ObjectId} (h : baseOf id r = some base) :
    id.index < r.objects.size := by
  obtain ⟨m, d, hm, -⟩ := baseOf_eq_some_iff.mp h
  obtain ⟨o, ho, -⟩ := Repository.modelOf?_eq_some_iff.mp hm
  exact Repository.index_lt_of_object? ho

theorem derives_of_entries (hr : r.WellFormed) {d : Datatype Kind} {base : ObjectId}
    (hd : r.model? m = some (.datatype d)) (hk : d.kind = .struct)
    (hbase : Entry.base? d.entries = some base) (hn : r.modelOf? base = some n) :
    Derives r m n := by
  obtain ⟨f, hf⟩ := hr.template hd
  have hm := Repository.modelOf?_of_object? hf
  exact ⟨d.template, base, hm, baseOf_eq_some_iff.mpr ⟨m, d, hm, hd, hk, hbase⟩, hn⟩

/-- What is derived from is that of a base that a structure declares. -/
theorem Derives.entries (h : Derives r m n) :
    ∃ d base, r.model? m = some (.datatype d) ∧ d.kind = .struct ∧
      Entry.base? d.entries = some base ∧ r.modelOf? base = some n := by
  obtain ⟨id, base, hm, hbase, hn⟩ := h
  obtain ⟨k, d, hk, hd, hkind, hbase⟩ := baseOf_eq_some_iff.mp hbase
  obtain rfl := Option.some.inj (hm.symm.trans hk)
  exact ⟨d, base, hd, hkind, hbase, hn⟩

/-! ## What changes no base -/

/-- Structures that are not among these were there, with the base that they have. -/
structure KeepsBasesBut (M : ModelId → Prop) (r r' : Repository (system limits)) : Prop where
  wellFormed : r'.WellFormed
  objects_le : r.objects.size ≤ r'.objects.size
  modelOf? : ∀ {id}, id.index < r.objects.size → r'.modelOf? id = r.modelOf? id
  old : ∀ {n d'}, r'.model? n = some (.datatype d') → d'.kind = .struct → ¬ M n →
    ∃ d, r.model? n = some (.datatype d) ∧ d.kind = .struct ∧
      Entry.base? d'.entries = Entry.base? d.entries ∧
      (Entry.Headed d.entries → Entry.Headed d'.entries)

namespace KeepsBasesBut

theorem refl (hr : r.WellFormed) : KeepsBasesBut M r r where
  wellFormed := hr
  objects_le := Nat.le_refl _
  modelOf? _ := rfl
  old {_ d} hd hk _ := ⟨d, hd, hk, rfl, id⟩

theorem trans (h : KeepsBasesBut M r r') (h' : KeepsBasesBut M r' r'') : KeepsBasesBut M r r'' where
  wellFormed := h'.wellFormed
  objects_le := Nat.le_trans h.objects_le h'.objects_le
  modelOf? hid := (h'.modelOf? (Nat.lt_of_lt_of_le hid h.objects_le)).trans (h.modelOf? hid)
  old hd'' hk'' hM := by
    obtain ⟨d', hd', hk', hbase', hheaded'⟩ := h'.old hd'' hk'' hM
    obtain ⟨d, hd, hk, hbase, hheaded⟩ := h.old hd' hk' hM
    exact ⟨d, hd, hk, hbase'.trans hbase, fun h => hheaded' (hheaded h)⟩

theorem of_edited {F D : ModelId → Prop} (h : r.Edited F D r') (hD : ∀ n d, D n →
    r'.model? n = some (.datatype d) → d.kind = .struct → M n) : KeepsBasesBut M r r' where
  wellFormed := h.wellFormed
  objects_le := h.sameBut.objects_le
  modelOf? := h.sameBut.modelOf?
  old {n d'} hd' hk hM := by
    have hn : ¬ D n := fun hn => hM (hD n d' hn hd' hk)
    have hlt := (h.sameBut.datatype_old hd').resolve_right hn
    obtain ⟨model, hmodel⟩ : ∃ model, r.model? n = some model := by simp [Repository.model?, hlt]
    cases model with
    | shape s => simp [h.sameBut.shape hmodel] at hd'
    | datatype d =>
      obtain ⟨e, he, hkind, -, hsame⟩ := h.sameBut.datatype hmodel
      obtain rfl := Repository.datatype_unique hd' he
      obtain ⟨g, rfl⟩ := hsame hn
      exact ⟨d, hmodel, hkind.symm.trans hk, rfl, id⟩

/-- A change of a datatype that is no structure, or that keeps the base, keeps every base. -/
theorem mapDatatype {k : ModelId} {f : Datatype Kind → Datatype Kind}
    (hr' : (r.mapDatatype k f).WellFormed) (hf : ∀ d, r.model? k = some (.datatype d) →
      (f d).kind = d.kind ∧ (d.kind = .struct → (f d).entries = d.entries)) :
    KeepsBasesBut M r (r.mapDatatype k f) where
  wellFormed := hr'
  objects_le := Nat.le_refl _
  modelOf? _ := rfl
  old hd' hk _ := by
    obtain ⟨d, hd, rfl⟩ := Repository.model?_mapDatatype_datatype.mp hd'
    split at hk
    · next hn =>
      subst hn
      obtain ⟨hkind, hentries⟩ := hf d hd
      rw [hkind] at hk
      exact ⟨d, hd, hk, by rw [if_pos rfl, hentries hk], fun h => by rwa [if_pos rfl, hentries hk]⟩
    · next hn => exact ⟨d, hd, hk, by rw [if_neg hn], fun h => by rwa [if_neg hn]⟩

/-- What has been begun and is no structure has no base. -/
theorem of_begun {name : String} {kind : Kind} (h : Begun r name kind r') (hkind : kind ≠ .struct) :
    KeepsBasesBut M r r' := by
  refine of_edited (D := (· = r.nextModel)) ⟨h.wellFormed, h.sameBut⟩ ?_
  rintro n d rfl hd hk
  exact (hkind (h.kind_eq hd ▸ hk)).elim

end KeepsBasesBut

/-! ## The invariant -/

/-- Of a structure only the first entry refers to a datatype, every base has been there when it was
declared, and no structure derives from itself. -/
structure Derived (r : Repository (system limits)) : Prop where
  headed : ∀ {m d}, r.model? m = some (.datatype d) → d.kind = .struct → Entry.Headed d.entries
  based : ∀ {m d base}, r.model? m = some (.datatype d) → d.kind = .struct →
    Entry.base? d.entries = some base → base.index < r.objects.size
  acyclic : ∀ m, ¬ TransGen (Derives r) m m

/-- What a structure derives from that has kept its base. -/
theorem KeepsBasesBut.derives (hr' : KeepsBasesBut M r r') (hr : r.WellFormed) (h : Derived r)
    (hmn : Derives r' m n) (hm : ¬ M m) : Derives r m n := by
  obtain ⟨d', base, hd', hk', hbase, hn⟩ := hmn.entries
  obtain ⟨d, hd, hk, hsame, -⟩ := hr'.old hd' hk' hm
  rw [hsame] at hbase
  rw [hr'.modelOf? (h.based hd hk hbase)] at hn
  exact derives_of_entries hr hd hk hbase hn

/-- A structure may get a base that does not derive from it. -/
theorem Derived.rebase (h : Derived r) (hr : r.WellFormed) (hr' : KeepsBasesBut (· = m) r r')
    (hm : ∀ d, r'.model? m = some (.datatype d) → d.kind = .struct → Entry.Headed d.entries ∧
      ∀ base, Entry.base? d.entries = some base → base.index < r'.objects.size ∧
        ∀ n, r'.modelOf? base = some n → ¬ ReflTransGen (Derives r) n m) : Derived r' where
  headed {k d} hd hk := by
    by_cases hkm : k = m
    · exact (hm d (hkm ▸ hd) hk).1
    · obtain ⟨e, he, hke, -, hheaded⟩ := hr'.old hd hk hkm
      exact hheaded (h.headed he hke)
  based {k d base} hd hk hbase := by
    by_cases hkm : k = m
    · exact ((hm d (hkm ▸ hd) hk).2 base hbase).1
    · obtain ⟨e, he, hke, hsame, -⟩ := hr'.old hd hk hkm
      exact Nat.lt_of_lt_of_le (h.based he hke (hsame ▸ hbase)) hr'.objects_le
  acyclic k hcycle := by
    -- Every new edge starts at the structure, and ends where nothing leads back to it.
    refine acyclic_addEdges h.acyclic m k (TransGen.mono (fun a b hab => ?_) k k hcycle)
    by_cases ha : a = m
    · subst ha
      obtain ⟨d, base, hd, hk, hbase, hb⟩ := hab.entries
      exact Or.inr ⟨rfl, ((hm d hd hk).2 base hbase).2 b hb⟩
    · exact Or.inl (hr'.derives hr h hab ha)

theorem Derived.keep (h : Derived r) (hr : r.WellFormed)
    (hr' : KeepsBasesBut (fun _ => False) r r') : Derived r' where
  headed hd hk := by
    obtain ⟨e, he, hke, -, hheaded⟩ := hr'.old hd hk id
    exact hheaded (h.headed he hke)
  based hd hk hbase := by
    obtain ⟨e, he, hke, hsame, -⟩ := hr'.old hd hk id
    exact Nat.lt_of_lt_of_le (h.based he hke (hsame ▸ hbase)) hr'.objects_le
  acyclic k hcycle := h.acyclic k
    (TransGen.mono (fun _ _ hab => hr'.derives hr h hab id) k k hcycle)

/-! ## The search for the template -/

/-- Where the bases that follow do not come to the template, no base that is another object of its
datatype stands in the way, and so they do not derive from it. -/
theorem not_derives_of_returnsTo {template : ObjectId}
    (hnames : ∀ id base, baseOf id r = some base → r.modelOf? base = some m → base = template)
    {steps : Nat} {current : ObjectId}
    (hreturns : returnsTo template r steps (some current) = false)
    (hn : r.modelOf? current = some n) (hne : n ≠ m) : ¬ ReflTransGen (Derives r) n m := by
  induction steps generalizing current n with
  | zero => simp [returnsTo] at hreturns
  | succ steps ih =>
    intro hpath
    rcases ReflTransGen.cases_head hpath with rfl | ⟨k, ⟨id, base, hid, hbase, hk⟩, hrest⟩
    · exact hne rfl
    · have hnext : returnsTo template r steps (some base) = false := by
        rw [returnsTo, Bool.or_eq_false_iff, baseOf_congr (hn.trans hid.symm), hbase] at hreturns
        exact hreturns.2
      by_cases hkm : k = m
      · -- The template itself would have been found.
        obtain rfl := hnames id base hbase (hkm ▸ hk)
        cases steps with
        | zero => simp [returnsTo] at hnext
        | succ steps => simp [returnsTo] at hnext
      · exact ih hnext hk hkm hrest

/-- A change of the base that succeeds has searched for the template. -/
theorem setBase_searched (template : ObjectId) (base : Option ObjectId) :
    (setBase template base).Ensures r
      (fun _ _ => ∃ target, base.mapM (structTarget (r.label template) · r) = .ok target ∧
        returnsTo template r r.models.size target = false) fun _ _ => True := by
  simp only [setBase, ensures_bind, ensures_query, ensures_ask]
  refine ⟨fun _ _ => ⟨fun target htarget => ?_, fun _ _ => trivial⟩, fun _ _ => trivial⟩
  split
  · exact trivial
  · next hcyclic =>
    exact (Step.ensures_true _ _).imp
      (fun _ _ _ => ⟨target, htarget, by simpa using hcyclic⟩) fun _ _ h => h

/-! ## Operations -/

/-- Nothing derives from a structure that is new, and its base is an old one. -/
theorem Derived.made (h : Derived r) (hr : r.WellFormed) {name : String}
    (hr' : Joined r name r') : Derived r' := by
  have hbegun := hr'.begun
  refine h.rebase hr (m := r.nextModel) (.of_edited (D := (· = r.nextModel))
    ⟨hbegun.wellFormed, hbegun.sameBut⟩ fun _ _ hn _ _ => hn) ?_
  intro d hd hk
  have hentries := Repository.entriesOf_datatype hd
  refine ⟨hentries ▸ hr'.headed, fun base hbase => ?_⟩
  obtain ⟨n, e, hn, he, hne, -⟩ := hr'.inherits base (hentries ▸ hbase)
  obtain ⟨o, ho, -⟩ := Repository.modelOf?_eq_some_iff.mp hn
  refine ⟨Repository.index_lt_of_object? ho, fun k hk hpath => ?_⟩
  obtain rfl := Option.some.inj (hn.symm.trans hk)
  rcases ReflTransGen.cases_tail hpath with heq | ⟨j, -, hj⟩
  · exact hne heq.symm
  · obtain ⟨d', b, -, -, -, hb⟩ := hj.entries
    obtain ⟨o', ho', hmodel⟩ := Repository.modelOf?_eq_some_iff.mp hb
    exact Nat.lt_irrefl _ (hmodel ▸ hr.model_lt ho')

section Operations

variable (hr : r.Consistent) (h : Derived r)

include hr h

theorem derived_newStruct (name : String) (entries : List Entry) :
    Derived ((newStruct name entries).run r).repo := by
  refine Step.Ensures.repo (P := Derived) ((newStruct_joins hr name entries).imp ?_ ?_)
  · exact fun _ r' h' => h.made hr.wellFormed h'
  · rintro _ r' (rfl | h')
    · exact h
    · exact h.made hr.wellFormed h'

theorem derived_defineMember (template : ObjectId) (member : Member) :
    Derived ((defineMember template member).run r).repo := by
  refine Step.Ensures.repo (P := Derived)
    ((defineMember_ensures_fields hr template member).imp ?_ ?_)
  · rintro _ r' ⟨m, hm, hedited, hentries, -⟩
    obtain ⟨-, d, hd, -⟩ := Repository.canonicalModel_eq_ok_iff.mp hm
    have hbut := KeepsBasesBut.of_edited (M := (· = m)) hedited fun _ _ hn _ _ => hn
    refine h.keep hr.wellFormed ⟨hbut.wellFormed, hbut.objects_le, hbut.modelOf?, ?_⟩
    intro n d' hd' hk _
    by_cases hn : n = m
    · subst hn
      obtain ⟨e, he, hkind, -⟩ := hedited.sameBut.datatype hd
      obtain rfl := Repository.datatype_unique hd' he
      replace hentries : d'.entries = Entry.define member d.entries := by
        rw [← Repository.entriesOf_datatype hd', hentries, Repository.entriesOf_datatype hd]
      exact ⟨d, hd, hkind.symm.trans hk, by rw [hentries, Entry.base?_define],
        fun hheaded => hentries ▸ hheaded.define⟩
    · exact hbut.old hd' hk hn
  · rintro _ r' rfl
    exact h

/-- A structure may get a base while no other one is based on an instance of it. -/
theorem derived_setBase {template : ObjectId} {base : Option ObjectId}
    (hnames : base.isSome → ∀ m id b, r.modelOf? template = some m → baseOf id r = some b →
      r.modelOf? b = some m → b = template) :
    Derived ((setBase template base).run r).repo := by
  have hrebases : (setBase template base).Ensures r
      (fun _ r' => ∃ target, base.mapM (structTarget (r.label template) · r) = .ok target ∧
        ∃ m, r.canonicalModel template = .ok m ∧ r'.Consistent ∧ Step.Rebased m target r r' ∧
          ∀ b, target = some b → Step.Inherited r r' m b) fun _ r' => r' = r :=
    setBase_ensures_canonical fun m target hm _ hkind => setBase_rebased hr hm hkind
  refine Step.Ensures.repo (P := Derived)
    ((hrebases.and (setBase_searched template base)).imp ?_ ?_)
  · rintro _ r' ⟨⟨target, htarget, m, hm, -, hrebased, hinherited⟩, target', htarget', hreturns⟩
    obtain rfl := Except.ok.inj (htarget.symm.trans htarget')
    obtain ⟨hmodel, d, hd, -⟩ := Repository.canonicalModel_eq_ok_iff.mp hm
    refine h.rebase hr.wellFormed (.of_edited hrebased.edited fun _ _ hn _ _ => hn) ?_
    intro d' hd' hk
    obtain ⟨e, he, hkind, -⟩ := hrebased.edited.sameBut.datatype hd
    obtain rfl := Repository.datatype_unique hd' he
    have hheaded := h.headed hd (hkind.symm.trans hk)
    have hentries : d'.entries = Entry.rebase target d.entries := by
      rw [← Repository.entriesOf_datatype hd', hrebased.entries, Repository.entriesOf_datatype hd]
    refine ⟨hentries ▸ hheaded.rebase, fun b hb => ?_⟩
    rw [hentries, Entry.base?_rebase hheaded] at hb
    subst hb
    obtain ⟨a, ha, hstruct⟩ := mapM_eq_ok_some htarget
    obtain ⟨n, hn, -⟩ := Option.bind_eq_some_iff.mp (structTarget_kind hstruct)
    obtain ⟨o, ho, -⟩ := Repository.modelOf?_eq_some_iff.mp hn
    have hlt := Repository.index_lt_of_object? ho
    refine ⟨Nat.lt_of_lt_of_le hlt hrebased.edited.sameBut.objects_le, fun k hk => ?_⟩
    rw [hrebased.edited.sameBut.modelOf? hlt] at hk
    exact not_derives_of_returnsTo (fun id b => hnames (by simp [ha]) m id b hmodel) hreturns hk
      (hinherited b rfl k hk).1
  · rintro _ r' ⟨rfl, -⟩
    exact h

end Operations

/-! ## Modules -/

/-- To put a datatype into a module changes the declaration of the module only. -/
theorem keepsBases_modular : Modular (KeepsBasesBut M r) where
  putScope {_} k {outer} h houter :=
    h.trans (.mapDatatype (h.wellFormed.putScope k houter) fun _ _ => ⟨rfl, fun _ => rfl⟩)
  list {_ k} child h hmodule := by
    have hwf := h.wellFormed.mapEntries k fun entries =>
      if entries.contains (.type child) then entries else entries ++ [.type child]
    refine h.trans (.mapDatatype hwf fun d hd => ⟨rfl, fun hstruct => ?_⟩)
    -- A module is no structure.
    obtain ⟨e, he, hke⟩ := Repository.kindOf?_eq_some_iff.mp hmodule
    obtain rfl := Repository.datatype_unique hd he
    simp [hke] at hstruct

/-! ## Other datatypes -/

theorem derived_begun (hr : r.WellFormed) (h : Derived r) {name : String} {kind : Kind}
    (hkind : kind ≠ .struct) {x : Step (system limits) ObjectId}
    (hx : x.Ensures r (fun _ => Begun r name kind) fun _ r' => r' = r ∨ Begun r name kind r') :
    Derived (x.run r).repo := by
  refine Step.Ensures.repo (P := Derived) (hx.imp ?_ ?_)
  · exact fun _ r' h' => h.keep hr (.of_begun h' hkind)
  · rintro _ r' (rfl | h')
    · exact h
    · exact h.keep hr (.of_begun h' hkind)

/-! ## Runs -/

/-- A constructor or an edit of the facade, or the making of an instance. -/
def Operation.Constructs : Operation → Prop
  | repository (.newInstance _ _ _) => True
  | repository _ => False
  | _ => True

theorem Operation.Constructs.keepsInstances {operation : Operation} (hop : operation.Constructs) :
    operation.KeepsInstances r := by
  cases operation with
  | repository inner =>
    cases inner with
    | newInstance => exact trivial
    | _ => exact hop.elim
  | _ => exact trivial

/-- The rule under which no structure derives from itself: a structure gets a base only while those
that are based on its datatype name its template. -/
def Operation.NamesTemplates (r : Repository (system limits)) (operation : Operation) : Prop :=
  operation.Constructs ∧ ∀ template base, operation = .setBase template (some base) →
    ∀ m id b, r.modelOf? template = some m → baseOf id r = some b → r.modelOf? b = some m →
      b = template

theorem Operation.perform_derived (hr : r.Consistent) (h : Derived r) {operation : Operation}
    (hrule : operation.NamesTemplates r) : Derived (operation.perform r) := by
  have hwf := hr.wellFormed
  obtain ⟨hop, hnames⟩ := hrule
  cases operation with
  | repository inner =>
    cases inner with
    | newInstance template under owned =>
      refine h.keep hwf (.of_edited (F := fun _ => False) (D := fun _ => False) ?_ fun _ _ hD => ?_)
      · exact (Step.keeps_newInstance Repository.edited_growing template under owned).repo
          hwf.edited
      · exact hD.elim
    | _ => exact hop.elim
  | newTag name => exact derived_begun hwf h (by simp) (newTag_begun hwf name)
  | newStruct name entries => exact derived_newStruct hr h name entries
  | newUnion name discriminator entries =>
    exact derived_begun hwf h (by simp) (newUnion_begun hwf name discriminator entries)
  | newEnum name enumerators =>
    exact derived_begun hwf h (by simp)
      ((newEnum_begun hwf name enumerators).imp (fun _ _ h' => h') fun _ _ h' => Or.inl h')
  | newTypedef name target qualifiers =>
    exact derived_begun hwf h (by simp) ((newTypedef_ensures (begins_begun hwf name Kind.typedef)
      target qualifiers).imp (fun _ _ h' => h') fun _ _ h' => Or.inl h')
  | newModule name parent =>
    exact h.keep hwf (keepsBases_modular.newModule (.refl hwf)
      (.of_begun (.start hwf name Kind.module) (by simp)) parent).repo
  | addToModule scope child =>
    exact h.keep hwf ((keepsBases_modular.addToModule scope child).repo (.refl hwf))
  | newConstant name datatype value =>
    exact derived_begun hwf h (by simp) ((newConstant_ensures (begins_begun hwf name Kind.const)
      datatype value).imp (fun _ _ h' => h') fun _ _ h' => Or.inl h')
  | defineMember template member => exact derived_defineMember hr h template member
  | setBase template base =>
    refine derived_setBase hr h fun hsome => ?_
    obtain ⟨b, rfl⟩ := Option.isSome_iff_exists.mp hsome
    exact hnames template b rfl

theorem derived_initial : Derived (initial limits) := by
  have hentries : ∀ {m d}, (initial limits).model? m = some (.datatype d) → d.entries = [] :=
    fun hd => (Repository.entriesOf_datatype hd).symm.trans (entriesOf_initial _)
  refine ⟨fun hd _ => ?_, fun hd _ hbase => ?_, fun m hcycle => ?_⟩
  · simp [hentries hd, Entry.Headed]
  · simp [hentries hd, Entry.base?] at hbase
  · obtain ⟨n, hmn, -⟩ := TransGen.head'_iff.mp hcycle
    obtain ⟨d, base, hd, -, hbase, -⟩ := hmn.entries
    simp [hentries hd, Entry.base?] at hbase

/-- Let a structure get a base only while all that are based on its datatype name its template, and
not an instance of it. Then no structure ever derives from itself, through however many bases,
whatever names the bases are given by. -/
theorem not_derives_self_of_reached
    (h : Reached Operation.perform Operation.NamesTemplates (initial limits) r) (m : ModelId) :
    ¬ TransGen (Derives r) m m := by
  have hstart : (initial limits).Consistent :=
    initial_of_empty Repository.consistent_declarative Repository.consistent_empty
  have hinvariant := h.invariant (P := fun r => r.Consistent ∧ Derived r) ⟨hstart, derived_initial⟩
    fun _ _ hr hrule => ⟨Operation.perform_consistent hr.1 hrule.1.keepsInstances,
      Operation.perform_derived hr.1 hr.2 hrule⟩
  exact hinvariant.2.acyclic m

/-- One structure is based on an instance of another one, whose base then gets a base itself. -/
theorem not_derives_self_after_edits :
    let r₀ := Operation.run (initial ⟨4, 4⟩)
      [.newStruct "A" [], .newStruct "B" [.type ⟨21⟩], .repository (.newInstance ⟨22⟩ "b" false),
        .newStruct "C" [.type ⟨23⟩], .newStruct "D" []]
    let r := Operation.perform r₀ (.setBase ⟨21⟩ (some ⟨25⟩))
    Derives r ⟨23⟩ ⟨22⟩ ∧ Derives r ⟨22⟩ ⟨21⟩ ∧ Derives r ⟨21⟩ ⟨24⟩ ∧
      ∀ m, ¬ TransGen (Derives r) m m := by
  intro r₀ r
  have hC : Derives r ⟨23⟩ ⟨22⟩ :=
    ⟨⟨24⟩, ⟨23⟩, by decide +kernel, by decide +kernel, by decide +kernel⟩
  have hB : Derives r ⟨22⟩ ⟨21⟩ :=
    ⟨⟨22⟩, ⟨21⟩, by decide +kernel, by decide +kernel, by decide +kernel⟩
  have hA : Derives r ⟨21⟩ ⟨24⟩ :=
    ⟨⟨21⟩, ⟨25⟩, by decide +kernel, by decide +kernel, by decide +kernel⟩
  have hmodel : r₀.modelOf? ⟨21⟩ = some ⟨21⟩ := by decide +kernel
  have hsize : r₀.objects.size = 26 := by decide +kernel
  have hbases : ∀ i < 26, ∀ b ∈ baseOf ⟨i⟩ r₀, r₀.modelOf? b = some ⟨21⟩ → b = ⟨21⟩ := by
    decide +kernel
  have h₀ : Reached Operation.perform Operation.NamesTemplates (initial ⟨4, 4⟩) r₀ := by
    simp only [r₀, Operation.run, List.foldl_cons, List.foldl_nil]
    refine .next (.next (.next (.next (.next .start ?_) ?_) ?_) ?_) ?_
    all_goals exact ⟨trivial, by simp⟩
  clear_value r₀
  have hrule : Operation.NamesTemplates r₀ (.setBase ⟨21⟩ (some ⟨25⟩)) := by
    refine ⟨trivial, ?_⟩
    rintro template base ⟨⟩ m id b hm hb hn
    obtain rfl := Option.some.inj (hmodel.symm.trans hm)
    exact hbases id.index (hsize ▸ index_lt_of_baseOf hb) b hb hn
  exact ⟨hC, hB, hA, not_derives_self_of_reached (.next h₀ hrule)⟩

/-- A structure gets a base that is itself based on an instance of the structure. -/
theorem derives_self_through_instance :
    let r₀ := Operation.run (initial ⟨4, 4⟩)
      [.newStruct "A" [], .repository (.newInstance ⟨21⟩ "a" false), .newStruct "B" [.type ⟨22⟩]]
    let r := Operation.perform r₀ (.setBase ⟨21⟩ (some ⟨23⟩))
    Reached Operation.perform (fun _ operation => operation.Constructs) (initial ⟨4, 4⟩) r ∧
      ((setBase ⟨21⟩ (some ⟨23⟩)).run r₀).answer = .ok () ∧ TransGen (Derives r) ⟨21⟩ ⟨21⟩ := by
  intro r₀ r
  have hA : Derives r ⟨21⟩ ⟨22⟩ :=
    ⟨⟨21⟩, ⟨23⟩, by decide +kernel, by decide +kernel, by decide +kernel⟩
  have hB : Derives r ⟨22⟩ ⟨21⟩ :=
    ⟨⟨23⟩, ⟨22⟩, by decide +kernel, by decide +kernel, by decide +kernel⟩
  have hanswer : ((setBase ⟨21⟩ (some ⟨23⟩)).run r₀).answer = .ok () := by decide +kernel
  have h₀ : Reached Operation.perform (fun _ operation => operation.Constructs) (initial ⟨4, 4⟩)
      r₀ := by
    simp only [r₀, Operation.run, List.foldl_cons, List.foldl_nil]
    exact .next (.next (.next .start trivial) trivial) trivial
  clear_value r₀
  exact ⟨.next h₀ trivial, hanswer, .tail (.single hA) hB⟩

end Metamodel.Idl
