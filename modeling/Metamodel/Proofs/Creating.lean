import Metamodel.Proofs.Lengths
import Metamodel.Proofs.Undoing

/-!
# Metamodel.Proofs.Creating -- every datatype has instances, and making one only adds

An instance is copied from the canonical template of its datatype, and from those of all datatypes
that are held inside. Each of the copies could fail: on what is released, on what is no template, or
on datatypes without end. In a consistent repository none of them does. Main statement: in every
state of every run that changes datatypes through the facade only, overwrites elements by leaves
only, and releases nothing that another object holds, an instance is made of every struct, union,
module, atom and enumeration under every name; and whatever is made is added to what there was.
-/

namespace Metamodel

open Relation (ReflTransGen)

variable {κ : Type} {ts : TypeSystem κ} {r r' : Repository ts}

namespace Repository

/-- `r'` is `r` with objects added, of which the composites are registered and nothing else is. -/
structure Adds (r r' : Repository ts) : Prop where
  /-- Every object is as it was, with all fields and elements, or is as gone as it was. -/
  object? : ∀ {x}, x.index < r.objects.size → r'.object? x = r.object? x
  shape : ∀ {m s}, r.model? m = some (.shape s) → r'.model? m = some (.shape s)
  /-- Kind, name, namespace, declarations, annotations and template of a datatype are as before. Its
  registry lists what it listed, and new objects behind. -/
  datatype : ∀ {m d}, r.model? m = some (.datatype d) → ∃ more : List (ObjectId × String),
    (∀ e ∈ more, r.objects.size ≤ e.1.index) ∧
    r'.model? m = some (.datatype
      { d with registry := d.registry.map fun g => ⟨g.entries ++ more⟩ })
  /-- No datatype is new. -/
  datatype_old : ∀ {m d}, r'.model? m = some (.datatype d) → m.index < r.models.size
  /-- The new objects that a model lists are the new composites that are bound to it. -/
  registered : ∀ {m x}, r.objects.size ≤ x.index →
    ((∃ name, (r'.registryOf? m).bind (·.get? x) = some name) ↔
      ∃ f, r'.object? x = some (.composite m f))

/-- What has been made of a datatype, and nothing before `r` is any of it. -/
structure MadeInstance (r r' : Repository ts) (m : ModelId) (name : String) (v : Value) : Prop where
  /-- Of a leaf there is the path only. -/
  leaf : r.isLeaf m = true → v = .accessor name ∧ r' = r
  /-- Of any other datatype there is a composite that is registered under the name. -/
  composite : r.isLeaf m = false → ∃ x f, v = .composite x ∧ r.objects.size ≤ x.index ∧
    r'.object? x = some (.composite m f) ∧ r'.registeredName x = name
  /-- Whatever it holds is new, through all fields and elements and at any depth. -/
  held : ∀ {x y}, v.object? = some x → ReflTransGen r'.Holds x y →
    r.objects.size ≤ y.index ∧ r'.isLive y = true

theorem Holds.mem_held {x y : ObjectId} (h : r.Holds x y) :
    ∃ o, r.object? x = some o ∧ y ∈ o.held := by
  cases h with
  | field hv hy =>
    obtain ⟨f, hf, hv⟩ := Option.bind_eq_some_iff.mp hv
    obtain ⟨m, ho⟩ := fields?_eq_some_iff.mp hf
    exact ⟨_, ho, Object.mem_held_iff.mpr ⟨_, Table.mem_values_of_get? hv, hy⟩⟩
  | element hv hy =>
    obtain ⟨es, hes, hv⟩ := Option.bind_eq_some_iff.mp hv
    obtain ⟨m, ho⟩ := elements?_eq_some_iff.mp hes
    exact ⟨_, ho, Object.mem_held_iff.mpr ⟨_, Table.mem_values_of_get? hv, hy⟩⟩

/-- What a new object holds is new, and so on. -/
theorem Extends.holds_new (h : r.Extends r') {x y : ObjectId} (hx : r.objects.size ≤ x.index)
    (hlive : r'.isLive x = true) (hxy : ReflTransGen r'.Holds x y) :
    r.objects.size ≤ y.index ∧ r'.isLive y = true := by
  induction hxy with
  | refl => exact ⟨hx, hlive⟩
  | tail _ hstep ih =>
    obtain ⟨o, ho, hmem⟩ := hstep.mem_held
    obtain ⟨v, hv, hvy⟩ := Object.mem_held_iff.mp hmem
    obtain ⟨hnew, hdenotes⟩ := h.held_new ho ih.1 hv
    exact ⟨hnew _ hvy, isLive_iff.mpr (hdenotes.object? hvy)⟩

/-- A datatype lists its live composites, if it may have any besides its template. -/
theorem WellFormed.registered_iff (h : r.WellFormed) {m : ModelId} {x : ObjectId}
    (hno : r.NoTemplate x) :
    (∃ name, (r.registryOf? m).bind (·.get? x) = some name) ↔
      ∃ f, r.object? x = some (.composite m f) := by
  constructor
  · rintro ⟨name, hname⟩
    obtain ⟨g, hg, hname⟩ := Option.bind_eq_some_iff.mp hname
    obtain ⟨model, hm, hg⟩ := Option.bind_eq_some_iff.mp hg
    cases model with
    | datatype d => exact h.composite_of_get? hm hg hname
    | shape s => simp [Model.registry?, Model.datatype?] at hg
  · rintro ⟨f, ho⟩
    obtain ⟨d, hd⟩ := h.composite ho
    rw [registryOf?_datatype hd]
    cases hg : d.registry with
    | none =>
      have halias := (h.registry_none_iff hd).mp hg
      rcases h.instance_kind ho hd with rfl | hkind
      · exact (hno m d hd rfl).elim
      · simp [hkind.2.1] at halias
    | some g =>
      obtain ⟨name, hname⟩ := Table.mem_keys_iff.mp ((h.registry_keys hd hg x).mpr ⟨f, ho⟩)
      exact ⟨name, hname⟩

theorem Assembled.adds {nested : Prop} {roots : ObjectId → Prop} (hr : r.WellFormed)
    (hgrew : Step.Grew r r') (h : Assembled nested r r' roots) : r.Adds r' where
  object? := hgrew.2.object?
  shape := hgrew.2.shape
  datatype := h.registry
  datatype_old := hgrew.2.datatype_old
  registered hx := hgrew.1.registered_iff (hgrew.2.noTemplate hr hx)

end Repository

namespace Step

variable {m : ModelId} {d : Datatype κ}

/-- What is made of a datatype that is no alias. A leaf is always made. -/
theorem newInstance_madeInstance (hr : r.WellFormed) (hd : r.model? m = some (.datatype d))
    (htemplate : ts.isTemplate d.kind = true) (halias : ts.isAlias d.kind = false) (name : String)
    (owned : Bool) :
    (newInstance d.template name owned).Ensures r (fun v r' => r.MadeInstance r' m name v)
      fun _ _ => r.isLeaf m = false := by
  obtain ⟨f, ho⟩ := hr.template hd
  have hplain : r.IsPlain d.template m := ⟨f, d, ho, hd, htemplate, halias⟩
  have hname : Path.join name (r.registeredName d.template) = name := by
    rw [hr.registeredName_template hd, Path.join_empty_right]
  -- What it is, apart from what it holds.
  have hform : (newInstance d.template name owned).Ensures r
      (fun v r' => (r.isLeaf m = true → v = .accessor name ∧ r' = r) ∧
        (r.isLeaf m = false → ∃ x f, v = .composite x ∧ r'.object? x = some (.composite m f) ∧
          r'.registeredName x = name)) fun _ _ => r.isLeaf m = false := by
    rw [newInstance_ensures_iff]
    apply instantiate_ensures hr
    case hrefused =>
      intro e he
      simp [hplain.seed] at he
    case hnested =>
      intro element q hseed
      simp [hplain.seed] at hseed
    case hleaf =>
      intro t k hseed hplain' hleaf
      obtain ⟨rfl, rfl⟩ := Repository.plain_unique hplain.seed hplain hseed hplain'
      exact ⟨fun _ => ⟨by rw [hname], rfl⟩, by simp [hleaf]⟩
    case hcomposite =>
      intro t k e fT hseed hplain' he hkind hT
      obtain ⟨rfl, rfl⟩ := Repository.plain_unique hplain.seed hplain hseed hplain'
      have hleaf : r.isLeaf m = false := by rw [Repository.isLeaf_datatype he, hkind.2.2]
      refine (cloneFieldsWith_ensures hr fT fun r₁ h₁ x =>
        instantiate_makes h₁.1 owned _ x _).imp ?_ fun _ _ _ => hleaf
      rintro copies r₁ ⟨h₁, -⟩
      obtain ⟨g, hg⟩ := h₁.2.datatype hd
      refine ⟨by simp [hleaf], fun _ => ⟨r₁.nextObject, copies, rfl, ?_, ?_⟩⟩
      · rw [Repository.object?_withInstance, if_pos rfl]
      · rw [Repository.registeredName_withInstance hg, hname]
  refine (hform.and (newInstance_makes hr d.template name owned)).imp ?_ fun _ _ h => h.1
  rintro v r' ⟨⟨hleaf, hcomposite⟩, ⟨hgrew, hloose⟩⟩
  constructor
  case leaf => exact hleaf
  case composite =>
    intro hno
    obtain ⟨x, f, rfl, ho, hregistered⟩ := hcomposite hno
    exact ⟨x, f, rfl, hloose.new x rfl, ho, hregistered⟩
  case held =>
    intro x y hx hxy
    have hlive := Repository.isLive_iff.mpr (hloose.denotes.object? hx)
    exact hgrew.2.holds_new (hloose.new x hx) hlive hxy

/-- In a consistent repository nothing that is made on the way to an instance fails. -/
theorem newInstance_creates (h : r.Consistent) (hd : r.model? m = some (.datatype d))
    (htemplate : ts.isTemplate d.kind = true) (halias : ts.isAlias d.kind = false) (name : String)
    (owned : Bool) :
    (newInstance d.template name owned).Ensures r
      (fun v r' => r.Adds r' ∧ r.MadeInstance r' m name v) fun _ _ => False := by
  have hr := h.wellFormed
  obtain ⟨f, ho⟩ := hr.template hd
  have hplain : r.IsPlain d.template m := ⟨f, d, ho, hd, htemplate, halias⟩
  have hany : Shallow True (fun _ => True) r :=
    ⟨fun _ _ _ => .inl trivial, fun _ _ _ => trivial⟩
  have hinstantiable := newInstance_instantiable h.orderly h.tidy.templatesCopyable d.template name
    owned
  refine ((hinstantiable.and (newInstance_makes hr d.template name owned)).and
    ((newInstance_assembled hr hany trivial name).and
      (newInstance_madeInstance hr hd htemplate halias name owned))).imp ?_ ?_
  · rintro v r' ⟨⟨-, hgrew, -⟩, hassembled, hmade⟩
    exact ⟨hassembled.adds hr hgrew, hmade⟩
  · rintro e r' ⟨⟨hno, -⟩, -⟩
    exact hno ⟨_, hplain.seed, by simp⟩

end Step

namespace Idl

open Step

variable {limits : Limits} {r : Repository (system limits)}

/-- In every state of every run that changes datatypes through the facade only, overwrites elements
by leaves only and releases nothing that an object holds, an instance is made of every struct,
union, module, atom and enumeration under every name. No field, element, declaration or registered
path of before is changed, what the instance holds is new at any depth, and of the new objects just
the composites are registered, each with its own model. -/
theorem creates_of_reached
    (h : Reached Operation.perform Operation.KeepsInstances (initial limits) r)
    {template : ObjectId} {m : ModelId} (hm : r.canonicalModel template = .ok m) {kind : Kind}
    (hkind : r.kindOf? m = some kind) (hsort : kind ∈ [.struct, .union, .module, .atom, .enum])
    (name : String) (owned : Bool) :
    let after := (newInstance template name owned).run r
    ∃ v, after.answer = .ok v ∧ r.Adds after.repo ∧ r.MadeInstance after.repo m name v := by
  obtain ⟨-, d, hd, rfl⟩ := Repository.canonicalModel_eq_ok_iff.mp hm
  obtain ⟨e, he, rfl⟩ := Repository.kindOf?_eq_some_iff.mp hkind
  obtain rfl := Repository.datatype_unique hd he
  obtain ⟨htemplate, halias⟩ : (system limits).isTemplate d.kind = true ∧
      (system limits).isAlias d.kind = false := by
    cases hd : d.kind <;> simp_all [system]
  exact (newInstance_creates (consistent_of_reached h) hd htemplate halias name owned).answers

/-- A line whose declaration has failed half way gets an instance, with a point of its own. -/
theorem creates_line :
    let r := Operation.run (initial ⟨4, 4⟩)
      [.newStruct "Point" [.member ⟨"x", Atom.long.template, [], []⟩],
        .newStruct "Line" [.member ⟨"end", ⟨21⟩, [], []⟩,
          .member ⟨"via", ⟨21⟩, [sequence (.size 0)], []⟩]]
    let after := (newInstance ⟨22⟩ "l" false).run r
    after.answer = .ok (.composite ⟨25⟩) ∧ r.Adds after.repo ∧
      r.MadeInstance after.repo ⟨22⟩ "l" (.composite ⟨25⟩) := by
  intro r after
  have hanswer : after.answer = .ok (.composite ⟨25⟩) := by decide +kernel
  have hcanonical : r.canonicalModel ⟨22⟩ = .ok ⟨22⟩ := by decide +kernel
  have hkind : r.kindOf? ⟨22⟩ = some .struct := by decide +kernel
  have hreached : Reached Operation.perform Operation.KeepsInstances (initial ⟨4, 4⟩) r := by
    simp only [r, Operation.run, List.foldl_cons, List.foldl_nil]
    exact .next (.next .start trivial) trivial
  obtain ⟨v, hv, hadds, hmade⟩ := creates_of_reached hreached hcanonical hkind (by simp) "l" false
  obtain rfl := Except.ok.inj (hv.symm.trans hanswer)
  exact ⟨hanswer, hadds, hmade⟩

end Idl

end Metamodel
