import Metamodel.Proofs.Obtaining
import Metamodel.Proofs.Snapshots

/-!
# Metamodel.Proofs.Forms -- what the value of a member is, whatever objects it is made of

Each time that the value of a member is made, it is made of new objects. Its form is all the rest:
the path of a leaf, the datatype and the path of a composite, or the element, the capacities and the
name of nested collections. Look-ups give the form before anything is made. Main statements: a value
is made exactly if the look-ups give a form, and then it has this form; and values of one form look
alike.
-/

namespace Metamodel

variable {κ : Type} {ts : TypeSystem κ} {r r' : Repository ts}

/-- What a value is, without the identifiers of the objects that it is made of. -/
inductive Form where
  | leaf (path : String)
  | composite (datatype : ModelId) (path : String)
  /-- Collections nested in each other, with their capacities, the outermost first. -/
  | nested (element : ObjectId) (capacities : List (Option Nat)) (name : String)

/-- The form of a copy under a path. -/
def Form.under (path : String) : Form → Form
  | .leaf name => .leaf (Path.leaf path name)
  | .composite m name => .composite m (Path.join path name)
  | .nested element capacities name => .nested element capacities (Path.join path name)

namespace Repository

/-! ## The form that is asked for -/

/-- The form of the collections that a qualifier describes. -/
def nestedForm (r : Repository ts) (element : ObjectId) (q : Qualifier) (name : String) :
    Except Error Form := do
  r.checkContent element
  let capacities ← r.capacities q
  .ok (.nested element capacities name)

/-- The form of an instance of a template under a path. -/
def instanceForm (r : Repository ts) (template : ObjectId) (under : String) :
    Except Error Form := do
  match ← r.seed template with
  | .nested element q => r.nestedForm element q under
  | .plain t => do
    let m ← r.modelOf t
    let path := Path.join under (r.registeredName t)
    .ok (if r.isLeaf m then .leaf path else .composite m path)

/-- The form of what a template holds for a member. -/
def memberForm (r : Repository ts) (datatype : ObjectId) (role : String)
    (qualifiers : List Qualifier) : Except Error Form := do
  let datatype ← r.assertTemplateKind datatype
  match qualifiers.find? r.isCollectionQualifier with
  | some q => r.nestedForm datatype q role
  | none => r.instanceForm datatype role

/-- The capacities are those of the bounds, one for each. -/
theorem forall₂_of_capacities {q : Qualifier} {cs : List (Option Nat)}
    (h : r.capacities q = .ok cs) :
    List.Forall₂ (fun bound capacity => r.resolveBound bound = .ok capacity) q.bounds cs := by
  obtain ⟨bounds, hbounds, hlimit⟩ := bind_eq_ok_iff.mp h
  split at hlimit
  · simp at hlimit
  · obtain rfl := Except.ok.inj hlimit
    exact mapM_eq_ok_iff.mp hbounds

theorem nestedForm_ok_iff {element : ObjectId} {q : Qualifier} {name : String} {form : Form} :
    r.nestedForm element q name = .ok form ↔ r.checkContent element = .ok () ∧
      ∃ capacities, r.capacities q = .ok capacities ∧ form = .nested element capacities name := by
  simp only [nestedForm, bind_eq_ok_iff, Except.ok.injEq, eq_comm (b := form)]
  exact ⟨fun ⟨_, hcontent, h⟩ => ⟨hcontent, h⟩, fun ⟨hcontent, h⟩ => ⟨(), hcontent, h⟩⟩

theorem spans_iff_nestedForm {element : ObjectId} {q : Qualifier} (name : String) :
    r.Spans element q ↔ ∃ form, r.nestedForm element q name = .ok form := by
  simp only [nestedForm_ok_iff]
  constructor
  · rintro ⟨hcontent, capacities, hcapacities⟩
    exact ⟨_, hcontent, capacities, hcapacities, rfl⟩
  · rintro ⟨_, hcontent, capacities, hcapacities, -⟩
    exact ⟨hcontent, capacities, hcapacities⟩

theorem instantiable_iff_instanceForm {template : ObjectId} (under : String) :
    r.Instantiable template ↔ ∃ form, r.instanceForm template under = .ok form := by
  simp only [instanceForm, bind_eq_ok_iff]
  constructor
  · rintro ⟨seed, hseed, hspans⟩
    cases seed with
    | nested element q =>
      obtain ⟨form, hform⟩ := (spans_iff_nestedForm under).mp (hspans element q rfl)
      exact ⟨form, _, hseed, hform⟩
    | plain t =>
      obtain ⟨⟨m, hplain⟩, -⟩ := seed_plain hseed
      exact ⟨_, _, hseed, bind_eq_ok_iff.mpr ⟨m, modelOf_eq_ok_iff.mpr hplain.modelOf?, rfl⟩⟩
  · rintro ⟨form, seed, hseed, hform⟩
    refine ⟨seed, hseed, fun element q heq => ?_⟩
    subst heq
    exact (spans_iff_nestedForm under).mpr ⟨form, hform⟩

/-- A member has a value exactly if the value has a form. -/
theorem hasValue_iff_memberForm {datatype : ObjectId} {qualifiers : List Qualifier}
    (role : String) : r.HasValue datatype qualifiers ↔
      ∃ form, r.memberForm datatype role qualifiers = .ok form := by
  simp only [memberForm, bind_eq_ok_iff]
  constructor
  · rintro ⟨htemplate, hdimensions, hplain⟩
    cases hfind : qualifiers.find? r.isCollectionQualifier with
    | some q =>
      obtain ⟨form, hform⟩ := (spans_iff_nestedForm role).mp (hdimensions q hfind)
      exact ⟨form, datatype, htemplate, hform⟩
    | none =>
      obtain ⟨form, hform⟩ := (instantiable_iff_instanceForm role).mp (hplain hfind)
      exact ⟨form, datatype, htemplate, hform⟩
  · rintro ⟨form, x, hx, hform⟩
    obtain rfl := (assertTemplateKind_eq_ok_iff.mp hx).1
    refine ⟨hx, fun q hfind => ?_, fun hfind => ?_⟩
    · rw [hfind] at hform
      exact (spans_iff_nestedForm role).mpr ⟨form, hform⟩
    · rw [hfind] at hform
      exact (instantiable_iff_instanceForm role).mpr ⟨form, hform⟩

/-! ## The form that a value has -/

/-- Collections of these capacities are nested in each other down to the element; only the outermost
one has a name. -/
def Nests (r : Repository ts) (element : ObjectId) :
    List (Option Nat) → String → ObjectId → Prop
  | [], _, id => id = element
  | capacity :: inner, name, id => ∃ s, r.shape id = .ok s ∧ s.name = name ∧
      s.capacity = capacity ∧ r.Nests element inner "" s.element

/-- The value is of the form. -/
inductive HasForm (r : Repository ts) : Form → Value → Prop where
  | leaf (path : String) : HasForm r (.leaf path) (.accessor path)
  | composite {m : ModelId} {path : String} {id : ObjectId} {f : Table String Value}
      (ho : r.object? id = some (.composite m f)) (hname : r.registeredName id = path) :
      HasForm r (.composite m path) (.composite id)
  | nested {element : ObjectId} {capacities : List (Option Nat)} {name : String} {id : ObjectId}
      (hne : capacities ≠ []) (h : r.Nests element capacities name id) :
      HasForm r (.nested element capacities name) (.collection id)

theorem Nests.preserves (h : r.Preserves r') {element : ObjectId} {cs : List (Option Nat)}
    {name : String} {id : ObjectId} (hnests : r.Nests element cs name id) :
    r'.Nests element cs name id := by
  induction cs generalizing name id with
  | nil => exact hnests
  | cons c inner ih =>
    obtain ⟨s, hs, hname, hcapacity, hinner⟩ := hnests
    obtain ⟨m, es, ho, -⟩ := shape_eq_ok_iff.mp hs
    exact ⟨s, (h id _ ho).shape hs, hname, hcapacity, ih hinner⟩

theorem HasForm.preserves (h : r.Preserves r') {form : Form} {v : Value}
    (hv : r.HasForm form v) : r'.HasForm form v := by
  cases hv with
  | leaf path => exact .leaf path
  | composite ho hname =>
    obtain ⟨f', ho'⟩ := (h _ _ ho).composite ho
    exact .composite ho' ((h _ _ ho).registeredName.trans hname)
  | nested hne hnests => exact .nested hne (hnests.preserves h)

theorem HasForm.denotes {form : Form} {v : Value} (hv : r.HasForm form v) : r.Denotes v := by
  cases hv with
  | leaf path => trivial
  | composite ho => exact ⟨_, _, ho⟩
  | @nested element cs name id hne hnests =>
    cases cs with
    | nil => exact (hne rfl).elim
    | cons c inner =>
      obtain ⟨s, hs, -⟩ := hnests
      obtain ⟨m, es, ho, -⟩ := shape_eq_ok_iff.mp hs
      exact ⟨m, es, ho⟩

/-- What follows a value has the form of the value, under the path. -/
theorem Follows.hasForm {under : String} {v w : Value} (h : r.Follows under v w) {form : Form}
    (hv : r.HasForm form v) : r.HasForm (form.under under) w := by
  cases hv with
  | leaf path =>
    cases h
    exact .leaf _
  | composite ho hname =>
    cases h with
    | composite hx hy hpath =>
      obtain ⟨rfl, -⟩ := composite_unique ho hx
      exact .composite hy (by rw [hpath, hname])
  | @nested element cs name id hne hnests =>
    cases h with
    | collection hx hy hpath helement hcapacity =>
      cases cs with
      | nil => exact (hne rfl).elim
      | cons c inner =>
        obtain ⟨s, hs, rfl, rfl, hinner⟩ := hnests
        obtain rfl := Except.ok.inj (hx.symm.trans hs)
        exact .nested hne ⟨_, hy, hpath, hcapacity, helement ▸ hinner⟩

end Repository

/-! ## Values are made of the form that is asked for -/

namespace Step

theorem nestCollections_nests (h : r.WellFormed) {element : ObjectId}
    (helement : element.index < r.objects.size) (owned : Bool) (cs : List (Option Nat))
    (name : String) :
    (nestCollections element owned cs name).Ensures r
      (fun id r' => r'.Nests element cs name id) fun _ _ => False := by
  induction cs generalizing name with
  | nil => exact rfl
  | cons c inner ih =>
    rw [nestCollections, ensures_bind]
    refine ((nestCollections_ensures h helement owned inner "").and (ih "")).imp ?_ fun _ _ h => h.1
    rintro content r₁ ⟨⟨h₁, hlt, -⟩, hinner⟩
    refine (buildCollection_ensures h₁.1 c name hlt fun source hsource => ?_).imp ?_ fun _ _ h => h
    · cases owned <;> simp [builtOrigin] at hsource
    · rintro id r₂ ⟨h₂, -, -, hshape⟩
      exact ⟨_, hshape, rfl, rfl, hinner.preserves h₂.2.preserves⟩

theorem newCollections_hasForm (h : r.WellFormed) (element : ObjectId) (q : Qualifier)
    (name : String) (owned : Bool) :
    (newCollections element q name owned).Ensures r
      (fun id r' => ∃ form, r.nestedForm element q name = .ok form ∧
        r'.HasForm form (.collection id)) fun _ _ => True := by
  simp only [newCollections, ensures_bind, ensures_query]
  refine ⟨fun _ hcontent => ⟨fun cs hcs => ?_, fun _ _ => trivial⟩, fun _ _ => trivial⟩
  obtain ⟨o, ho⟩ := checkContent_eq_ok hcontent
  refine (nestCollections_nests h (Repository.index_lt_of_object? ho) owned cs name).imp ?_
    fun _ _ h => h.elim
  intro id r' hnests
  exact ⟨_, Repository.nestedForm_ok_iff.mpr ⟨hcontent, cs, hcs, rfl⟩,
    .nested (capacities_ne_nil hcs) hnests⟩

theorem newInstance_hasForm (h : r.WellFormed) (template : ObjectId) (under : String)
    (owned : Bool) :
    (newInstance template under owned).Ensures r
      (fun v r' => ∃ form, r.instanceForm template under = .ok form ∧ r'.HasForm form v)
      fun _ _ => True := by
  rw [newInstance_ensures_iff]
  -- What the look-ups give for a template that is no alias.
  have hform : ∀ {t m}, r.seed template = .ok (.plain t) → r.IsPlain t m →
      r.instanceForm template under = .ok (if r.isLeaf m
        then .leaf (Path.join under (r.registeredName t))
        else .composite m (Path.join under (r.registeredName t))) := by
    intro t m hseed hplain
    refine bind_eq_ok_iff.mpr ⟨_, hseed, bind_eq_ok_iff.mpr ⟨m, ?_, rfl⟩⟩
    exact Repository.modelOf_eq_ok_iff.mpr hplain.modelOf?
  apply instantiate_ensures h
  case hrefused => exact fun _ _ => trivial
  case hnested =>
    intro element q hseed
    refine (newCollections_hasForm h element q under owned).imp ?_ fun _ _ h => h
    rintro id r' ⟨form, hnested, hid⟩
    exact ⟨form, bind_eq_ok_iff.mpr ⟨_, hseed, hnested⟩, hid⟩
  case hleaf =>
    intro t m hseed hplain hleaf
    exact ⟨_, hform hseed hplain, by rw [if_pos hleaf]; exact .leaf _⟩
  case hcomposite =>
    intro t m d f hseed hplain hd hkind _
    have hleaf : r.isLeaf m = false := by rw [Repository.isLeaf_datatype hd, hkind.2.2]
    refine (cloneFieldsWith_ensures h f fun r₁ h₁ id => instantiate_makes h₁.1 owned _ id _).imp ?_
      fun _ _ _ => trivial
    rintro copies r₁ ⟨h₁, -⟩
    obtain ⟨g, hg⟩ := h₁.2.datatype hd
    refine ⟨_, hform hseed hplain, ?_⟩
    rw [hleaf, if_neg Bool.false_ne_true]
    refine .composite (f := copies) ?_ (Repository.registeredName_withInstance hg _ _)
    rw [Repository.object?_withInstance, if_pos rfl]

/-- The value that is made for a member has the form that the look-ups give. -/
theorem createRoleInstance_hasForm (h : r.WellFormed) (datatype : ObjectId) (role : String)
    (qualifiers : List Qualifier) :
    (createRoleInstance datatype role qualifiers).Ensures r
      (fun v r' => ∃ form, r.memberForm datatype role qualifiers = .ok form ∧ r'.HasForm form v)
      fun _ _ => True := by
  simp only [createRoleInstance, ensures_bind, ensures_query, ensures_ask]
  refine ⟨fun x hx => ?_, fun _ _ => trivial⟩
  split
  · next q hfind =>
    rw [ensures_map]
    refine (newCollections_hasForm h x q role true).imp ?_ fun _ _ h => h
    rintro id r' ⟨form, hform, hid⟩
    exact ⟨form, bind_eq_ok_iff.mpr ⟨x, hx, by rw [hfind]; exact hform⟩, hid⟩
  · next hfind =>
    refine (newInstance_hasForm h x role true).imp ?_ fun _ _ h => h
    rintro v r' ⟨form, hform, hv⟩
    exact ⟨form, bind_eq_ok_iff.mpr ⟨x, hx, by rw [hfind]; exact hform⟩, hv⟩

end Step

/-! ## Values of one form look alike -/

namespace Repository

/-- A collection is captured by its name, its capacity, and what its elements are made from. -/
theorem captureWith_of_shape (hr : r.WellFormed) {id : ObjectId} {s : Shape}
    (hs : r.shape id = .ok s) (c : ObjectId → Except Error Snapshot) :
    r.captureWith c (.collection id) = (r.valueOf s.element >>= r.captureWith c).map
      (.collection s.name s.capacity) := by
  obtain ⟨m, es, ho, -⟩ := shape_eq_ok_iff.mp hs
  have hid : id.index < r.objects.size := index_lt_of_object? ho
  have helement : s.element.index < id.index := hr.element_lt hs
  -- One layer less leaves enough depth for the rest.
  have hinner : r.layersWithin r.objects.size s.element = r.layers s.element :=
    (Extends.refl r).layersWithin_eq hr (Nat.lt_succ_of_lt (Nat.lt_trans helement hid))
      (Nat.lt_trans helement hid) (Nat.lt_trans helement hid)
  simp only [captureWith, valueOf]
  rw [layers, layersWithin, hs]
  simp only [bind, Except.bind]
  cases r.object s.element with
  | error e => rfl
  | ok o =>
    cases o with
    | composite n f =>
      simp only [Except.map, captureWith]
      cases c s.element with
      | error e => rfl
      | ok image => rfl
    | collection n es =>
      simp only [Except.map, captureWith, hinner, bind, Except.bind]
      cases r.layers s.element with
      | error e => rfl
      | ok layers =>
        simp only
        cases c layers.2 with
        | error e => rfl
        | ok image => rfl

theorem valueOf_of_shape {id : ObjectId} {s : Shape} (hs : r.shape id = .ok s) :
    r.valueOf id = .ok (.collection id) := by
  obtain ⟨m, es, ho, -⟩ := shape_eq_ok_iff.mp hs
  have hobject : r.object id = .ok (.collection m es) := object_eq_ok_iff.mpr ho
  rw [valueOf, hobject]
  rfl

/-- The value that refers to an object denotes it. -/
theorem denotes_of_valueOf {id : ObjectId} {v : Value} (h : r.valueOf id = .ok v) :
    r.Denotes v ∧ v.object? = some id := by
  cases ho : r.object? id with
  | none => simp [valueOf, object, ho, Except.map] at h
  | some o =>
    rw [valueOf, object_eq_ok_iff.mpr ho] at h
    obtain rfl := Except.ok.inj h
    cases o with
    | composite m f => exact ⟨⟨m, f, ho⟩, rfl⟩
    | collection m es => exact ⟨⟨m, es, ho⟩, rfl⟩

/-- Collections that are nested in the same way look alike. -/
theorem Nests.capture_eq (hr : r.WellFormed) (c : ObjectId → Except Error Snapshot)
    {element : ObjectId} {cs : List (Option Nat)} {name : String} {x y : ObjectId}
    (hx : r.Nests element cs name x) (hy : r.Nests element cs name y) :
    r.valueOf x >>= r.captureWith c = r.valueOf y >>= r.captureWith c := by
  induction cs generalizing name x y with
  | nil =>
    obtain rfl : x = element := hx
    obtain rfl : y = x := hy
    rfl
  | cons capacity inner ih =>
    obtain ⟨s, hs, rfl, rfl, hsinner⟩ := hx
    obtain ⟨t, ht, hname, hcapacity, htinner⟩ := hy
    rw [valueOf_of_shape hs, valueOf_of_shape ht]
    show r.captureWith c (.collection x) = r.captureWith c (.collection y)
    rw [captureWith_of_shape hr hs, captureWith_of_shape hr ht, ih hsinner htinner, hname,
      hcapacity]

theorem Nests.valueOf {element : ObjectId} {cs : List (Option Nat)} {name : String}
    {id : ObjectId} (hne : cs ≠ []) (h : r.Nests element cs name id) :
    r.valueOf id = .ok (.collection id) := by
  cases cs with
  | nil => exact (hne rfl).elim
  | cons c inner =>
    obtain ⟨s, hs, -⟩ := h
    exact valueOf_of_shape hs

/-- Nested collections of one form look alike. -/
theorem HasForm.captureWith_eq (hr : r.WellFormed) {element : ObjectId} {cs : List (Option Nat)}
    {name : String} {v w : Value} (hv : r.HasForm (.nested element cs name) v)
    (hw : r.HasForm (.nested element cs name) w) (c : ObjectId → Except Error Snapshot) :
    r.captureWith c v = r.captureWith c w := by
  cases hv with
  | nested hne hx =>
    cases hw with
    | nested _ hy =>
      have heq := hx.capture_eq hr c hy
      rwa [hx.valueOf hne, hy.valueOf hne] at heq

/-- Values of one form look alike. -/
theorem Consistent.snapshot_eq_of_form (h : r.Consistent) {form : Form} {v w : Value}
    (hv : r.HasForm form v) (hw : r.HasForm form w) : r.snapshot v = r.snapshot w := by
  cases hv with
  | leaf path =>
    cases hw
    rfl
  | composite hx hname =>
    cases hw with
    | composite hy hname' => exact h.captureComposite_eq hx hy (hname.trans hname'.symm)
  | nested hne hx => exact HasForm.captureWith_eq h.wellFormed (.nested hne hx) hw _

/-- What has the form of a member looks as a value does that is made for it now. -/
theorem Consistent.looksLikeNew (h : r.Consistent) (hlive : r.HasContents) {datatype : ObjectId}
    {role : String} {qualifiers : List Qualifier} {form : Form} {v : Value}
    (hform : r.memberForm datatype role qualifiers = .ok form) (hv : r.HasForm form v) :
    ∃ w image, ((Step.createRoleInstance datatype role qualifiers).run r).answer = .ok w ∧
      r.snapshot v = .ok image ∧
      ((Step.createRoleInstance datatype role qualifiers).run r).repo.snapshot w = .ok image := by
  have hvalue := (hasValue_iff_memberForm role).mpr ⟨form, hform⟩
  obtain ⟨w, hw, -⟩ := ((Step.createRoleInstance_hasValue h.orderly h.tidy datatype role
    qualifiers).imp (fun _ _ h => h) fun _ _ hno => hno hvalue).answers
  obtain ⟨hcopied, -⟩ := (Step.createRoleInstance_whole h.orderly h.tidy datatype role
    qualifiers).ok_of_answer hw
  obtain ⟨form', hform', hwform⟩ := (Step.createRoleInstance_hasForm h.wellFormed datatype role
    qualifiers).ok_of_answer hw
  obtain rfl := Except.ok.inj (hform.symm.trans hform')
  have hext := hcopied.grew.2
  have hafter : ((Step.createRoleInstance datatype role qualifiers).run r).repo.Consistent :=
    h.copied hcopied
  obtain ⟨image, himage⟩ := hlive.snapshot_ok h.wellFormed h.tidy hv.denotes
  refine ⟨w, image, hw, himage, ?_⟩
  rw [hafter.snapshot_eq_of_form hwform (hv.preserves hext.preserves),
    hext.snapshot_eq h.wellFormed h.tidy hv.denotes, himage]

end Repository

end Metamodel
