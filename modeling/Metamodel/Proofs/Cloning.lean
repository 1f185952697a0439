import Metamodel.Proofs.Annotations
import Metamodel.Proofs.Snapshots

/-!
# Metamodel.Proofs.Cloning -- copies through and through

`r.Reproduces since depth under v w` says that `w` is what a copy of `v` under the path is, down to
the fields of every composite inside: what a copy leaves is told by the templates and the aliases of
the repository, and not by when it was made. It holds in any repository, also where templates hold
values that nothing refers to any more. Main statements: a copy reproduces the value; it goes on to
do so while fields of older instances are written and objects are added; a value that has been
copied once can be copied again; and whatever reproduces a value under one path looks alike.
-/

namespace Metamodel

variable {κ : Type} {ts : TypeSystem κ} {r r' r'' : Repository ts} {since depth : Nat}

namespace Repository

/-! ## Later repositories -/

/-- `r'` comes after `r`, with fields written at most in instances older than `since`. -/
structure Later (since : Nat) (r r' : Repository ts) : Prop where
  sameBut : r.SameBut (fun _ => True) (fun _ => False) r'
  template : ∀ {m d}, r.model? m = some (.datatype d) →
    r'.object? d.template = r.object? d.template
  recent : ∀ {id o}, since ≤ id.index → r.object? id = some o → r'.object? id = some o

namespace Later

theorem refl (r : Repository ts) : Later since r r := ⟨.refl r, fun _ => rfl, fun _ ho => ho⟩

theorem trans (h : Later since r r') (h' : Later since r' r'') : Later since r r'' where
  sameBut := h.sameBut.trans h'.sameBut
  template hd := by
    obtain ⟨d', hd', -, ht, -⟩ := h.sameBut.datatype hd
    rw [← ht, h'.template hd', ht, h.template hd]
  recent hid ho := h'.recent hid (h.recent hid ho)

theorem of_extends (hr : r.WellFormed) (hext : r.Extends r') : Later since r r' where
  sameBut := hext.sameBut
  template hd := hext.object? (hr.template_lt hd)
  recent _ ho := hext.object?_some ho

theorem writeField {id : ObjectId} (hid : id.index < since) (hno : r.NoTemplate id)
    (role : String) (value : Option Value) : Later since r (r.writeField id role value) where
  sameBut := sameBut_writeField (fun _ _ _ => trivial) role value
  template {m d} hd := by rw [object?_writeField, if_neg (hno m d hd)]
  recent {x o} hx ho := by
    have hne : x ≠ id := by
      rintro rfl
      omega
    rw [object?_writeField, if_neg hne, ho]

theorem withInstance {m : ModelId} {d : Datatype κ} {f : Table String Value}
    (hr : r.WellFormed) (hd : r.model? m = some (.datatype d)) (path : String) :
    Later since r (r.withInstance m f path) where
  sameBut := sameBut_withInstance hd path
  template he := by
    obtain ⟨fT, hT⟩ := hr.template he
    rw [hT]
    exact object?_withInstance_of_some hT
  recent _ ho := object?_withInstance_of_some ho

/-- What was no template does not become one. -/
theorem noTemplate (h : Later since r r') {id : ObjectId} (hno : r.NoTemplate id) :
    r'.NoTemplate id := by
  intro m d' hd'
  have hlt : m.index < r.models.size := (h.sameBut.datatype_old hd').resolve_right not_false
  obtain ⟨model, hm⟩ : ∃ model, r.model? m = some model := by simp [Repository.model?, hlt]
  cases model with
  | shape s => simp [h.sameBut.shape hm] at hd'
  | datatype d =>
    obtain ⟨e, he, -, ht, -⟩ := h.sameBut.datatype hm
    obtain rfl := datatype_unique hd' he
    exact ht ▸ hno m d hm

end Later

/-! ## What instances and copies are -/

/-- What a copy of a value under a path is, given what instances are. -/
inductive ReproducesWith (r : Repository ts) (made : ObjectId → String → Value → Prop)
    (under : String) : Value → Value → Prop where
  | held {v w : Value} (hv : v.composite? = none) (h : r.Follows under v w) :
      ReproducesWith r made under v w
  | made {x : ObjectId} {w : Value} (h : made x under w) :
      ReproducesWith r made under (.composite x) w

/-- What an instance of a template under a path is, given what copies are. -/
inductive InstantiatesWith (r : Repository ts) (since : Nat)
    (copied : String → Value → Value → Prop) (id : ObjectId) (under : String) : Value → Prop where
  | nested {element : ObjectId} {q : Qualifier} {form : Form} {w : Value}
      (hseed : r.seed id = .ok (.nested element q))
      (hform : r.nestedForm element q under = .ok form) (hw : r.HasForm form w) :
      InstantiatesWith r since copied id under w
  | leaf {t : ObjectId} {m : ModelId} (hseed : r.seed id = .ok (.plain t)) (hplain : r.IsPlain t m)
      (hleaf : r.isLeaf m = true) :
      InstantiatesWith r since copied id under (.accessor (Path.join under (r.registeredName t)))
  | composite {t y : ObjectId} {m : ModelId} {d : Datatype κ} {fT f : Table String Value}
      (hseed : r.seed id = .ok (.plain t)) (hplain : r.IsPlain t m)
      (hd : r.model? m = some (.datatype d)) (hleaf : r.isLeaf m = false)
      (hT : r.object? d.template = some (.composite m fT)) (hnew : since ≤ y.index)
      (hy : r.object? y = some (.composite m f))
      (hname : r.registeredName y = Path.join under (r.registeredName t))
      (hfields : fT.Fieldwise (copied (r.registeredName y)) f) :
      InstantiatesWith r since copied id under (.composite y)

/-- The value is an instance of the template under the path, made since that number, with at most
`depth` datatypes nested. -/
def Instantiates (r : Repository ts) (since : Nat) : Nat → ObjectId → String → Value → Prop
  | 0 => fun _ _ _ => False
  | depth + 1 => r.InstantiatesWith since (r.ReproducesWith (Instantiates r since depth))

/-- The second value is a copy of the first one under the path, made since that number, with at most
`depth` datatypes nested. -/
def Reproduces (r : Repository ts) (since depth : Nat) : String → Value → Value → Prop :=
  r.ReproducesWith (r.Instantiates since depth)

variable {id : ObjectId} {under : String} {v w : Value}

namespace InstantiatesWith

variable {copied : String → Value → Value → Prop} {t : ObjectId} {m : ModelId}

/-- What an alias with dimensions has for an instance. -/
theorem of_nested (hw : r.InstantiatesWith since copied id under w) {element : ObjectId}
    {q : Qualifier} (hseed : r.seed id = .ok (.nested element q)) :
    ∃ form, r.nestedForm element q under = .ok form ∧ r.HasForm form w := by
  cases hw with
  | nested hseed' hform hw =>
    obtain ⟨rfl, rfl⟩ := Seed.nested.inj (Except.ok.inj (hseed.symm.trans hseed'))
    exact ⟨_, hform, hw⟩
  | leaf hseed' => simp [hseed] at hseed'
  | composite hseed' => simp [hseed] at hseed'

/-- What a leaf has for an instance. -/
theorem of_leaf (hw : r.InstantiatesWith since copied id under w)
    (hseed : r.seed id = .ok (.plain t)) (hplain : r.IsPlain t m) (hleaf : r.isLeaf m = true) :
    w = .accessor (Path.join under (r.registeredName t)) := by
  cases hw with
  | nested hseed' => simp [hseed] at hseed'
  | leaf hseed' =>
    obtain rfl := Seed.plain.inj (Except.ok.inj (hseed.symm.trans hseed'))
    rfl
  | composite hseed' hplain' _ hleaf' =>
    obtain ⟨rfl, rfl⟩ := plain_unique hseed hplain hseed' hplain'
    simp [hleaf] at hleaf'

/-- What any other datatype has for an instance. -/
theorem of_composite (hw : r.InstantiatesWith since copied id under w) {d : Datatype κ}
    {fT : Table String Value} (hseed : r.seed id = .ok (.plain t)) (hplain : r.IsPlain t m)
    (hd : r.model? m = some (.datatype d)) (hleaf : r.isLeaf m = false)
    (hT : r.object? d.template = some (.composite m fT)) :
    ∃ y f, w = .composite y ∧ r.object? y = some (.composite m f) ∧
      r.registeredName y = Path.join under (r.registeredName t) ∧
      fT.Fieldwise (copied (r.registeredName y)) f := by
  cases hw with
  | nested hseed' => simp [hseed] at hseed'
  | leaf hseed' hplain' hleaf' =>
    obtain ⟨rfl, rfl⟩ := plain_unique hseed hplain hseed' hplain'
    simp [hleaf] at hleaf'
  | @composite t' y m' d' fT' f hseed' hplain' hd' _ hT' _ hy hname hfields =>
    obtain ⟨rfl, rfl⟩ := plain_unique hseed hplain hseed' hplain'
    obtain rfl := datatype_unique hd hd'
    obtain ⟨-, rfl⟩ := composite_unique hT hT'
    exact ⟨y, f, rfl, hy, hname, hfields⟩

end InstantiatesWith

theorem ReproducesWith.later {made made' : ObjectId → String → Value → Prop}
    (h : r.ReproducesWith made under v w) (hpreserves : r.Preserves r')
    (hmade : ∀ x, made x under w → made' x under w) : r'.ReproducesWith made' under v w := by
  cases h with
  | held hv h => exact .held hv (h.preserves hpreserves)
  | made h => exact .made (hmade _ h)

/-- An instance stays what it is. By induction on the depth: its template and its fields stay. -/
theorem Instantiates.later (hr : r.Annotated) (h : Later since r r')
    (hw : r.Instantiates since depth id under w) : r'.Instantiates since depth id under w := by
  have hretains := h.sameBut.retainsAliases hr
  induction depth generalizing id under w with
  | zero => exact hw
  | succ depth ih =>
    cases hw with
    | nested hseed hform hw =>
      exact .nested (hretains.seed hseed) (hretains.nestedForm hform)
        (hw.preserves hretains.preserves)
    | @leaf t m hseed hplain hleaf =>
      obtain ⟨f, ho⟩ := hplain.object?
      obtain ⟨d, hd, -⟩ := hplain.datatype
      rw [← (hretains.preserves t _ ho).registeredName]
      refine .leaf (hretains.seed hseed) (hretains.isPlain hplain) ?_
      rw [isLeaf, hretains.kindOf?_eq hd]
      exact hleaf
    | @composite t y m d fT f hseed hplain hd hleaf hT hnew hy hname hfields =>
      obtain ⟨g, ho⟩ := hplain.object?
      obtain ⟨d', hd', -, ht, -⟩ := h.sameBut.datatype hd
      have hyname := (hretains.preserves y _ hy).registeredName
      have hT' : r'.object? d'.template = some (.composite m fT) := by
        rw [ht, h.template hd, hT]
      refine .composite (hretains.seed hseed) (hretains.isPlain hplain) hd' ?_ hT' hnew
        (h.recent hnew hy) ?_ ?_
      · rw [isLeaf, hretains.kindOf?_eq hd]
        exact hleaf
      · rw [hyname, hname, (hretains.preserves t _ ho).registeredName]
      · rw [hyname]
        exact hfields.imp fun a b _ _ hab => hab.later hretains.preserves fun x => ih

theorem Reproduces.later (hr : r.Annotated) (h : Later since r r')
    (hvw : r.Reproduces since depth under v w) : r'.Reproduces since depth under v w :=
  ReproducesWith.later hvw h.sameBut.preserves fun _ => Instantiates.later hr h

end Repository

/-! ## Instances and copies are made -/

namespace Step

open Repository (Annotated Later annotated_robust)

variable {id : ObjectId} {under : String} {v w : Value} {owned : Bool}

/-- The step makes an instance of a template. -/
def MakesInstance (x : Step ts Value) (since depth : Nat) (id : ObjectId) (under : String)
    (r : Repository ts) : Prop :=
  x.Ensures r (fun w r' => Grew r r' ∧ r'.Instantiates since depth id under w) fun _ _ => True

theorem cloneWith_reproduces (hr : r.WellFormed) {make : ObjectId → String → Step ts Value}
    (hmake : ∀ x, v = .composite x → MakesInstance (make x under) since depth x under r) :
    (cloneWith make owned v under).Ensures r
      (fun w r' => Grew r r' ∧ r'.Reproduces since depth under v w) fun _ _ => True := by
  cases v with
  | accessor leaf => exact ⟨grew_refl hr, .held rfl (.accessor leaf)⟩
  | scalar s => exact ⟨grew_refl hr, .held rfl (.scalar s)⟩
  | composite x => exact (hmake x rfl).imp (fun _ _ h => ⟨h.1, .made h.2⟩) fun _ _ h => h
  | collection x =>
    rw [cloneWith, ensures_map]
    cases hs : r.shape x with
    | error e =>
      simp only [copyCollection, ensures_bind, ensures_query]
      exact ⟨fun s hs' => by simp [hs] at hs', fun _ _ => trivial⟩
    | ok s =>
      refine (copyCollection_ensures hr hs under owned).imp ?_ fun _ _ h => h.elim
      rintro y r' ⟨hgrew, -, -, t, ht, hname, helement, hcapacity⟩
      exact ⟨hgrew, .held rfl (.collection (hgrew.2.shape_ok hs) ht hname helement hcapacity)⟩

/-- Copies of fields reproduce the fields. -/
theorem cloneFieldsWith_reproduces (hr : r.Annotated) {make : ObjectId → String → Step ts Value}
    (fields : Table String Value)
    (hmake : ∀ r₁, Grew r r₁ → ∀ x, MakesInstance (make x under) since depth x under r₁) :
    (cloneFieldsWith make owned fields under).Ensures r
      (fun copies r' => Grew r r' ∧ fields.Fieldwise (r'.Reproduces since depth under) copies)
      fun _ _ => True := by
  rw [cloneFieldsWith, ensures_bind]
  refine (ensures_mapEach (P := Grew r)
    (R := fun r₁ field copy => copy.1 = field.1 ∧ r₁.Reproduces since depth under field.2 copy.2)
    fields.entries ?_ (grew_refl hr.wellFormed)).imp ?_ fun _ _ h => h
  · intro field _ r₁ h₁
    simp only [ensures_bind, ensures_pure]
    refine (cloneWith_reproduces h₁.1 fun x _ => hmake r₁ h₁ x).imp ?_ fun _ _ h => h
    rintro copy r₂ ⟨h₂, hcopy⟩
    have hr₁ : r₁.Annotated := annotated_robust.grew hr h₁
    exact ⟨h₁.trans h₂, fun _ _ h => ⟨h.1, h.2.later hr₁ (.of_extends h₁.1 h₂.2)⟩, trivial, hcopy⟩
  · rintro copies r' ⟨h', -, hcopies⟩
    exact ⟨h', hcopies⟩

/-- A new instance with copies of the fields of the canonical template instantiates it. The look-ups
are those of the start, the copies those of just before. -/
theorem instantiates_withInstance (hr : r.Annotated) (hsince : since ≤ r.objects.size)
    {r₁ : Repository ts} (h₁ : Grew r r₁) {t : ObjectId} {m : ModelId} {d : Datatype κ}
    {path : String} {fT copies : Table String Value} (hseed : r.seed id = .ok (.plain t))
    (hplain : r.IsPlain t m) (hd : r.model? m = some (.datatype d))
    (hleaf : ts.isLeaf d.kind = false) (hT : r.object? d.template = some (.composite m fT))
    (hpath : path = Path.join under (r.registeredName t))
    (hcopies : fT.Fieldwise (r₁.Reproduces since depth path) copies)
    (hgrew : Grew r (r₁.withInstance m copies path)) :
    (r₁.withInstance m copies path).Instantiates since (depth + 1) id under
      (.composite r₁.nextObject) := by
  obtain ⟨g, hg⟩ := h₁.2.datatype hd
  obtain ⟨g', hg'⟩ := hgrew.2.datatype hd
  obtain ⟨f₀, ho⟩ := hplain.object?
  have hretains := (hgrew.2.sameBut (F := fun _ => False)).retainsAliases hr
  have hname := Repository.registeredName_withInstance hg copies path
  refine .composite (hretains.seed hseed) (hretains.isPlain hplain) hg' ?_
    (hgrew.2.object?_some hT) (Nat.le_trans hsince h₁.2.objects_le)
    (by rw [Repository.object?_withInstance, if_pos rfl]) ?_ ?_
  · rw [Repository.isLeaf_datatype hg']
    exact hleaf
  · rw [hname, hgrew.2.registeredName ho, hpath]
  · rw [hname]
    exact hcopies.imp fun a b _ _ hab =>
      hab.later (annotated_robust.grew hr h₁) (.withInstance h₁.1 hg path)

/-- What is made for a template instantiates it. By induction on the depth. -/
theorem instantiate_makesInstance (hr : r.Annotated) (hsince : since ≤ r.objects.size)
    (owned : Bool) (depth : Nat) (id : ObjectId) (under : String) :
    MakesInstance (instantiate owned depth id under) since depth id under r := by
  induction depth generalizing r id under with
  | zero => exact trivial
  | succ depth ih =>
    have hwf := hr.wellFormed
    apply instantiate_ensures hwf
    case hrefused => exact fun _ _ => trivial
    case hnested =>
      intro element q hseed
      refine (Ensures.and (newCollections_makes hwf element q under owned)
        (newCollections_hasForm hwf element q under owned)).imp ?_ fun _ _ _ => trivial
      rintro y r' ⟨⟨hgrew, -⟩, form, hform, hy⟩
      have hretains := (hgrew.2.sameBut (F := fun _ => False)).retainsAliases hr
      exact ⟨hgrew, .nested (hretains.seed hseed) (hretains.nestedForm hform) hy⟩
    case hleaf => exact fun t m hseed hplain hleaf => ⟨grew_refl hwf, .leaf hseed hplain hleaf⟩
    case hcomposite =>
      intro t m d fT hseed hplain hd hkind hT
      have hreproduces : (cloneFieldsWith (instantiate owned depth) owned fT
          (Path.join under (r.registeredName t))).Ensures r (fun copies r₁ => Grew r r₁ ∧
            fT.Fieldwise (r₁.Reproduces since depth (Path.join under (r.registeredName t))) copies)
            fun _ _ => True :=
        cloneFieldsWith_reproduces hr fT fun r₁ h₁ x =>
          ih (annotated_robust.grew hr h₁) (Nat.le_trans hsince h₁.2.objects_le) x _
      refine ((cloneFieldsWith_ensures hwf fT fun r₁ h₁ x =>
        instantiate_makes h₁.1 owned depth x _).and hreproduces).imp ?_ fun _ _ _ => trivial
      rintro copies r₁ ⟨⟨h₁, hloose⟩, -, hcopies⟩
      obtain ⟨hgrew, -⟩ := h₁.withCopies hwf (Path.join under (r.registeredName t)) hd hkind hT
        hloose fun _ _ hloose => hloose
      exact ⟨hgrew, instantiates_withInstance hr hsince h₁ hseed hplain hd hkind.2.2 hT rfl hcopies
        hgrew⟩

/-! ## What has been copied can be copied again -/

theorem newCollections_answers (hr : r.WellFormed) {element : ObjectId} {q : Qualifier}
    {name : String} {form : Form} (hform : r.nestedForm element q name = .ok form) :
    (newCollections element q under owned).Ensures r (fun _ _ => True) fun _ _ => False := by
  obtain ⟨hcontent, cs, hcs, -⟩ := Repository.nestedForm_ok_iff.mp hform
  obtain ⟨o, ho⟩ := checkContent_eq_ok hcontent
  simp only [newCollections, ensures_bind, ensures_query, hcontent, hcs]
  refine ⟨fun _ _ => ⟨fun cs _ => ?_, by simp⟩, by simp⟩
  exact (nestCollections_ensures hr (Repository.index_lt_of_object? ho) owned cs under).imp
    (fun _ _ _ => trivial) fun _ _ h => h

theorem cloneWith_answers (hr : r.WellFormed) {make : ObjectId → String → Step ts Value}
    {path : String} (hvw : r.Reproduces since depth path v w)
    (hmake : ∀ x, r.Instantiates since depth x path w →
      (make x under).Ensures r (fun _ _ => True) fun _ _ => False) :
    (cloneWith make owned v under).Ensures r (fun _ _ => True) fun _ _ => False := by
  cases hvw with
  | made h => exact hmake _ h
  | held hv h =>
    cases h with
    | accessor leaf => exact trivial
    | scalar s => exact trivial
    | composite => simp [Value.composite?] at hv
    | collection hx =>
      rw [cloneWith, ensures_map]
      exact (copyCollection_ensures hr hx under owned).imp (fun _ _ _ => trivial) fun _ _ h => h

/-- What has an instance can be given another one, anywhere and within the same depth. By induction
on the depth: each field of the template has been copied. -/
theorem instantiate_answers (hr : r.Annotated) {path : String}
    (hw : r.Instantiates since depth id path w) (owned : Bool) (under : String) :
    (instantiate owned depth id under).Ensures r (fun _ _ => True) fun _ _ => False := by
  induction depth generalizing r id path under w with
  | zero => exact hw
  | succ depth ih =>
    have hwf := hr.wellFormed
    apply instantiate_ensures hwf
    case hrefused =>
      intro e he
      cases hw <;> simp_all
    case hnested =>
      intro element q hseed
      obtain ⟨form, hform, -⟩ := Repository.InstantiatesWith.of_nested hw hseed
      exact newCollections_answers hwf hform
    case hleaf => exact fun _ _ _ _ _ => trivial
    case hcomposite =>
      intro t m d fT hseed hplain hd hkind hT
      have hleaf : r.isLeaf m = false := by rw [Repository.isLeaf_datatype hd, hkind.2.2]
      obtain ⟨y, f, -, -, -, hfields⟩ :=
        Repository.InstantiatesWith.of_composite hw hseed hplain hd hleaf hT
      rw [cloneFieldsWith, ensures_bind]
      refine (ensures_mapEach (P := Grew r) (R := fun _ _ _ => True) fT.entries ?_
        (grew_refl hwf)).imp (fun _ _ _ => trivial) fun _ _ h => h
      intro field hfield r₁ h₁
      have hr₁ : r₁.Annotated := annotated_robust.grew hr h₁
      obtain ⟨b, -, hb⟩ := hfields.symm.of_mem_right (List.mem_map.mpr ⟨field, hfield, rfl⟩)
      have hb₁ := Repository.Reproduces.later hr (.of_extends hwf h₁.2) hb
      simp only [ensures_bind, ensures_pure]
      refine ((cloneWith_makes h₁.1 fun x _ => instantiate_makes h₁.1 owned depth x _).and
        (cloneWith_answers h₁.1 hb₁ fun x hx => ih hr₁ hx _)).imp ?_ fun _ _ h => h.2
      exact fun copy r₂ hcopy => ⟨h₁.trans hcopy.1.1, fun _ _ _ => trivial, trivial⟩

/-! ## Copies of values -/

theorem cloneValue_reproduces (hr : r.Annotated) (hsince : since ≤ r.objects.size) (v : Value)
    (under : String) (owned : Bool) :
    (cloneValue v under owned).Ensures r
      (fun w r' => Grew r r' ∧ r'.Reproduces since (r.models.size + 1) under v w)
      fun _ _ => True :=
  cloneWith_reproduces hr.wellFormed fun x _ =>
    newInstance_ensures_iff.mpr (instantiate_makesInstance hr hsince owned _ x under)

/-- A value that has been copied within the depth that there is now can be copied now, under any
path. -/
theorem cloneValue_answers (hr : r.Annotated) (hdepth : depth ≤ r.models.size + 1) {path : String}
    (hvw : r.Reproduces since depth path v w) (under : String) (owned : Bool) :
    (cloneValue v under owned).Ensures r (fun _ _ => True) fun _ _ => False := by
  refine cloneWith_answers hr.wellFormed hvw fun x hx => newInstance_ensures_iff.mpr ?_
  have hanswers := instantiate_answers hr hx owned under
  have hsettles : Settles (instantiate owned depth x under) r :=
    hanswers.imp (fun _ _ h => h) fun _ _ h => h.elim
  rw [Ensures, instantiate_of_le hdepth hsettles]
  exact hanswers

end Step

/-! ## Copies look alike -/

namespace Repository

variable {id : ObjectId} {under : String} {v a b : Value} {since' depth' : Nat}

/-- Copies of one value under one path look alike if instances do. -/
theorem ReproducesWith.captureWith_eq {made made' : ObjectId → String → Value → Prop}
    (ha : r.ReproducesWith made under v a) (hb : r.ReproducesWith made' under v b)
    {c : ObjectId → Except Error Snapshot}
    (hmade : ∀ x, made x under a → made' x under b → r.captureWith c a = r.captureWith c b) :
    r.captureWith c a = r.captureWith c b := by
  cases ha with
  | made ha =>
    cases hb with
    | made hb => exact hmade _ ha hb
    | held hv => simp [Value.composite?] at hv
  | held hv ha =>
    cases hb with
    | made hb => simp [Value.composite?] at hv
    | held _ hb =>
      cases ha with
      | accessor leaf =>
        cases hb
        rfl
      | scalar s =>
        cases hb
        rfl
      | composite => simp [Value.composite?] at hv
      | collection hx ha hname helement hcapacity =>
        cases hb with
        | collection hx' hb hname' helement' hcapacity' =>
          obtain rfl := Except.ok.inj (hx.symm.trans hx')
          exact captureWith_collection ha hb (hname'.trans hname.symm)
            (helement'.trans helement.symm) (hcapacity'.trans hcapacity.symm) c

/-- Instances of one template under one path look alike, whenever they were made. By induction on
the depth to which datatypes are nested in them. -/
theorem Instantiates.captureWith_eq (hr : r.WellFormed)
    (ha : r.Instantiates since depth id under a) (hb : r.Instantiates since' depth' id under b)
    (deep : Nat) (within : List ModelId) :
    r.captureWith (r.captureComposite deep within) a =
      r.captureWith (r.captureComposite deep within) b := by
  induction depth generalizing depth' id under a b deep within with
  | zero => exact ha.elim
  | succ depth ih =>
    cases depth' with
    | zero => exact hb.elim
    | succ depth' =>
      cases ha with
      | nested hseed hform ha =>
        obtain ⟨form, hform', hb⟩ := InstantiatesWith.of_nested hb hseed
        obtain rfl := Except.ok.inj (hform.symm.trans hform')
        obtain ⟨-, cs, -, rfl⟩ := nestedForm_ok_iff.mp hform
        exact HasForm.captureWith_eq hr ha hb _
      | leaf hseed hplain hleaf =>
        obtain rfl := InstantiatesWith.of_leaf hb hseed hplain hleaf
        rfl
      | @composite t x m d fT f hseed hplain hd hleaf hT _ hx hname hfields =>
        obtain ⟨y, g, rfl, hy, hname', hfields'⟩ :=
          InstantiatesWith.of_composite hb hseed hplain hd hleaf hT
        rw [hname] at hfields
        rw [hname'] at hfields'
        show r.captureComposite deep within x = r.captureComposite deep within y
        cases deep with
        | zero => rw [captureComposite_zero hx, captureComposite_zero hy]
        | succ deep =>
          -- What the two have for a role reproduces one value of the template.
          have halike : f.Fieldwise (fun a b =>
              r.captureWith (r.captureComposite deep (m :: within)) a =
                r.captureWith (r.captureComposite deep (m :: within)) b) g :=
            hfields.join hfields' fun v a b ha hb =>
              ReproducesWith.captureWith_eq ha hb fun _ ha hb => ih ha hb _ _
          rw [captureComposite_succ hx, captureComposite_succ hy, captureFields_congr halike]

/-- Whatever reproduces a value under one path looks alike. -/
theorem Reproduces.snapshot_eq (hr : r.WellFormed) (ha : r.Reproduces since depth under v a)
    (hb : r.Reproduces since' depth' under v b) : r.snapshot a = r.snapshot b :=
  ReproducesWith.captureWith_eq ha hb fun _ ha hb => ha.captureWith_eq hr hb _ _

/-- `w` looks like a copy of `v` under the path that is made now, once it has been made; and if `w`
has a snapshot before that, it is the snapshot of the copy. -/
structure LooksCloned (r : Repository ts) (path : String) (v w : Value) : Prop where
  copy : ∃ copy, ((Step.cloneValue v path true).run r).answer = .ok copy ∧
    ((Step.cloneValue v path true).run r).repo.snapshot w =
      ((Step.cloneValue v path true).run r).repo.snapshot copy ∧
    ∀ image, r.snapshot w = .ok image →
      ((Step.cloneValue v path true).run r).repo.snapshot copy = .ok image

theorem Reproduces.looksCloned (hr : r.Annotated) (hdepth : depth ≤ r.models.size + 1)
    (h : r.Reproduces since depth under v a) : r.LooksCloned under v a := by
  obtain ⟨copy, hanswer, -⟩ := (Step.cloneValue_answers hr hdepth h under true).answers
  obtain ⟨hgrew, hcopy⟩ :=
    (Step.cloneValue_reproduces hr (Nat.le_refl _) v under true).ok_of_answer hanswer
  have heq := (h.later hr (.of_extends hr.wellFormed hgrew.2)).snapshot_eq hgrew.1 hcopy
  exact ⟨copy, hanswer, heq, fun image himage =>
    heq.symm.trans (hgrew.2.snapshot_ok hr.wellFormed himage)⟩

end Repository

end Metamodel
