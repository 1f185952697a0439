import Metamodel.Proofs.Fieldwise
import Metamodel.Proofs.Lasting

/-!
# Metamodel.Proofs.Following -- instances that have the fields of their template

`r.Follows under v w` says that `w` is what a copy of `v` under the path is: the same leaf further
along, a composite of the same datatype that is registered under the longer path, a collection of
the same shape with the longer name. It does not look into the composite, since that was not copied
from the one at hand but from the template of its datatype. `r.Synced S` says that each of the
composites `S` has the fields of the template of its datatype, followed under its own path.
-/

namespace Metamodel.Repository

variable {κ : Type} {ts : TypeSystem κ} {r r' : Repository ts} {under : String} {v w : Value}

/-- What a copy of a value under a path is. -/
inductive Follows (r : Repository ts) (under : String) : Value → Value → Prop where
  | accessor (leaf : String) : Follows r under (.accessor leaf) (.accessor (Path.leaf under leaf))
  | scalar (s : Scalar) : Follows r under (.scalar s) (.scalar s)
  | composite {x y : ObjectId} {m : ModelId} {f g : Table String Value}
      (hx : r.object? x = some (.composite m f)) (hy : r.object? y = some (.composite m g))
      (hname : r.registeredName y = Path.join under (r.registeredName x)) :
      Follows r under (.composite x) (.composite y)
  | collection {x y : ObjectId} {s t : Shape} (hx : r.shape x = .ok s) (hy : r.shape y = .ok t)
      (hname : t.name = Path.join under s.name) (helement : t.element = s.element)
      (hcapacity : t.capacity = s.capacity) : Follows r under (.collection x) (.collection y)

/-- A value follows another one as long as what they refer to lasts. -/
theorem Follows.lasts (h : r.Follows under v w) (hv : ∀ x, v.object? = some x → r.Lasts r' x)
    (hw : ∀ y, w.object? = some y → r.Lasts r' y) : r'.Follows under v w := by
  cases h with
  | accessor leaf => exact .accessor leaf
  | scalar s => exact .scalar s
  | @composite x y m f g hx hy hname =>
    have hxl := hv x rfl
    have hyl := hw y rfl
    obtain ⟨f', hx'⟩ := hxl.composite hx
    obtain ⟨g', hy'⟩ := hyl.composite hy
    refine .composite hx' hy' ?_
    rw [hyl.registeredName, hname, hxl.registeredName]
  | @collection x y s t hx hy hname helement hcapacity =>
    exact .collection ((hv x rfl).shape hx) ((hw y rfl).shape hy) hname helement hcapacity

theorem Follows.denotes (h : r.Follows under v w) : r.Denotes v ∧ r.Denotes w := by
  cases h with
  | accessor leaf => exact ⟨trivial, trivial⟩
  | scalar s => exact ⟨trivial, trivial⟩
  | composite hx hy _ => exact ⟨⟨_, _, hx⟩, _, _, hy⟩
  | collection hx hy _ _ _ =>
    obtain ⟨m, es, ho, -⟩ := shape_eq_ok_iff.mp hx
    obtain ⟨n, fs, hp, -⟩ := shape_eq_ok_iff.mp hy
    exact ⟨⟨m, es, ho⟩, n, fs, hp⟩

theorem Follows.preserves (h : r.Follows under v w) (hr' : r.Preserves r') :
    r'.Follows under v w := by
  refine h.lasts (fun x hx => ?_) fun y hy => ?_
  · obtain ⟨o, ho⟩ := h.denotes.1.object? hx
    exact hr' x o ho
  · obtain ⟨o, ho⟩ := h.denotes.2.object? hy
    exact hr' y o ho

/-- A value is what a copy of it under the empty path is. -/
theorem follows_self (hr : r.WellFormed) (hv : r.Denotes v) : r.Follows "" v v := by
  cases v with
  | accessor leaf =>
    have h : r.Follows "" (.accessor leaf) (.accessor (Path.leaf "" leaf)) := .accessor leaf
    rwa [Path.leaf_empty] at h
  | scalar s => exact .scalar s
  | composite x =>
    obtain ⟨m, f, ho⟩ := hv
    exact .composite ho ho (Path.join_empty_left _).symm
  | collection x =>
    obtain ⟨m, es, ho⟩ := hv
    obtain ⟨s, hshape⟩ := hr.shape_of_collection ho
    exact .collection hshape hshape (Path.join_empty_left _).symm rfl rfl

/-! ## Composites and their templates -/

/-- The fields of these composites follow those of the templates of their datatypes. -/
def Synced (r : Repository ts) (S : ObjectId → Prop) : Prop :=
  ∀ ⦃id m d f fT⦄, S id → id ≠ d.template → r.object? id = some (.composite m f) →
    r.model? m = some (.datatype d) → r.object? d.template = some (.composite m fT) →
    fT.Fieldwise (r.Follows (r.registeredName id)) f

variable {S : ObjectId → Prop}

namespace Synced

theorem imp (h : r.Synced S) {S' : ObjectId → Prop} (hS : ∀ id, S' id → S id) : r.Synced S' :=
  fun id _ _ _ _ hid hne ho hd hT => h (hS id hid) hne ho hd hT

/-- Every composite is among these or among those. -/
theorem or (h : r.Synced S) {S' : ObjectId → Prop} (h' : r.Synced S') :
    r.Synced fun id => S id ∨ S' id := by
  intro id m d f fT hid hne ho hd hT
  rcases hid with hid | hid
  · exact h hid hne ho hd hT
  · exact h' hid hne ho hd hT

/-- Composites stay as their templates are if both keep their fields, and every object lasts. -/
theorem transfer (h : r.Synced S) (hr' : r.Preserves r')
    (hold : ∀ {id m d' f fT}, S id → id ≠ d'.template → r'.object? id = some (.composite m f) →
      r'.model? m = some (.datatype d') → r'.object? d'.template = some (.composite m fT) →
      r.object? id = some (.composite m f) ∧ r.object? d'.template = some (.composite m fT) ∧
        ∃ d, r.model? m = some (.datatype d) ∧ d.template = d'.template) : r'.Synced S := by
  intro id m d' f fT hid hne ho hd' hT
  obtain ⟨ho₀, hT₀, d, hd, ht⟩ := hold hid hne ho hd' hT
  have hfields := h hid (ht ▸ hne) ho₀ hd (ht ▸ hT₀)
  rw [(hr' id _ ho₀).registeredName]
  exact hfields.imp fun v w _ _ hvw => hvw.preserves hr'

/-- What is added does not touch the composites that were there. -/
theorem grew (h : r.Synced S) (hr : r.WellFormed) (hext : r.Extends r') :
    r'.Synced fun id => S id ∧ id.index < r.objects.size := by
  refine (h.imp fun id hid => And.left hid).transfer hext.preserves ?_
  intro id m d' f fT hid _ ho hd' hT
  obtain ⟨d, g, hd, rfl⟩ := hext.datatype_of hd'
  rw [hext.object? hid.2] at ho
  rw [hext.object? (hr.template_lt hd)] at hT
  exact ⟨ho, hT, d, hd, rfl⟩

theorem mapDatatype (h : r.Synced S) {k : ModelId} {f : Datatype κ → Datatype κ}
    (hf : ∀ d, (f d).registry = d.registry ∧ (f d).template = d.template) :
    (r.mapDatatype k f).Synced S := by
  refine h.transfer (preserves_mapDatatype fun d => (hf d).1) ?_
  intro id m d' fs fT _ _ ho hd' hT
  obtain ⟨d, hd, rfl⟩ := model?_mapDatatype_datatype.mp hd'
  refine ⟨ho, hT, d, hd, ?_⟩
  split
  · exact (hf d).2.symm
  · rfl

theorem addTemplate (h : r.Synced S) (hr : r.WellFormed) (name : String) (kind : κ) :
    (r.addTemplate name kind).Synced S := by
  refine h.transfer (preserves_addTemplate hr name kind) ?_
  intro id m d' f fT _ hne ho hd' hT
  rw [model?_addTemplate] at hd'
  rw [object?_addTemplate] at ho hT
  split at hd'
  · next hm =>
    -- The new datatype has no composite but its template.
    obtain rfl := Model.datatype.inj (Option.some.inj hd')
    have hid : id ≠ r.nextObject := hne
    rw [if_neg hid] at ho
    have hlt : m.index < r.models.size := hr.model_lt ho
    rw [hm] at hlt
    exact (Nat.lt_irrefl _ hlt).elim
  · next hm =>
    have hid : id ≠ r.nextObject := by
      rintro rfl
      rw [if_pos rfl] at ho
      exact hm (Object.composite.inj (Option.some.inj ho)).1.symm
    have ht : d'.template ≠ r.nextObject := by
      intro ht
      have := hr.template_lt hd'
      rw [ht] at this
      exact Nat.lt_irrefl _ this
    rw [if_neg hid] at ho
    rw [if_neg ht] at hT
    exact ⟨ho, hT, d', hd', rfl⟩

theorem writeElement (h : r.Synced S) (id : ObjectId) (index : Nat) (value : Value) :
    (r.writeElement id index value).Synced S := by
  refine h.transfer (preserves_writeElement id index value) ?_
  intro a m d' f fT _ _ ho hd' hT
  rw [model?_writeElement] at hd'
  exact ⟨composite_writeElement.mp ho, composite_writeElement.mp hT, d', hd', rfl⟩

/-- Freeing objects that nothing else holds does not touch the other composites. -/
theorem freeAll (h : r.Synced S) {ids : List ObjectId}
    (hids : ∀ {a o x}, r.object? a = some o → a ∉ ids → x ∈ o.held → x ∉ ids) :
    (r.freeAll ids).Synced S := by
  intro id m d' f fT hid hne ho hd' hT
  obtain ⟨hidn, ho⟩ := object?_freeAll_eq_some.mp ho
  obtain ⟨htn, hT⟩ := object?_freeAll_eq_some.mp hT
  obtain ⟨d, hd, ht⟩ := (steady_freeAll ids).template hd' (index_lt_of_object? hT)
  have hfields := h hid (ht ▸ hne) ho hd (ht ▸ hT)
  rw [(lasts_freeAll hidn).registeredName]
  -- Neither the template nor the instance held what is freed.
  refine hfields.imp fun v w hv hw hvw => hvw.lasts (fun x hx => ?_) fun y hy => ?_
  · exact lasts_freeAll (hids hT htn (Object.mem_held_iff.mpr ⟨v, hv, hx⟩))
  · exact lasts_freeAll (hids ho hidn (Object.mem_held_iff.mpr ⟨w, hw, hy⟩))

end Synced

end Metamodel.Repository
