import Metamodel.Proofs.Consistent
import Metamodel.Snapshot

/-!
# Metamodel.Proofs.Snapshots -- what snapshots depend on

A snapshot opens one composite after the other, and never the same datatype twice on the way in. So
it depends on the fields of a composite alone, on the shapes of collections, and not on the depth
that it is given. Main statements: in a consistent repository composites of one datatype with one
path look alike, and what is added to a repository does not change how anything looks that was
there.
-/

namespace Metamodel.Repository

variable {κ : Type} {ts : TypeSystem κ} {r r' : Repository ts}

/-! ## Opening a composite -/

/-- Captures the fields of a composite, given how composites are captured. -/
def captureFields (r : Repository ts) (c : ObjectId → Except Error Snapshot)
    (fields : Table String Value) : Except Error (List (String × Snapshot)) :=
  fields.entries.mapM fun field => do
    let inner ← r.captureWith c field.2
    .ok (field.1, inner)

theorem captureComposite_zero {id : ObjectId} {m : ModelId} {f : Table String Value}
    (ho : r.object? id = some (.composite m f)) (within : List ModelId) :
    r.captureComposite 0 within id = .ok (.composite (r.nameOf m) []) := by
  have hm : r.modelOf id = .ok m := modelOf_of_object? ho
  rw [captureComposite, hm]
  exact ite_self _

theorem captureComposite_succ {id : ObjectId} {m : ModelId} {f : Table String Value}
    (ho : r.object? id = some (.composite m f)) (depth : Nat) (within : List ModelId) :
    r.captureComposite (depth + 1) within id =
      if within.contains m then .ok (.composite (r.nameOf m) [])
      else (r.captureFields (r.captureComposite depth (m :: within)) f).map
        (.composite (r.nameOf m)) := by
  have hm : r.modelOf id = .ok m := modelOf_of_object? ho
  have hf : r.fields id = .ok f := fields_eq_ok_iff.mpr ⟨m, ho⟩
  rw [captureComposite, hm]
  show (if _ then _ else r.fields id >>= _) = _
  rw [hf]
  rfl

/-- A composite of a datatype that is being captured further out is captured without its fields. -/
theorem captureComposite_of_mem {id : ObjectId} {o : Object} (ho : r.object? id = some o)
    {within : List ModelId} (hmem : o.model ∈ within) (depth : Nat) :
    r.captureComposite depth within id = .ok (.composite (r.nameOf o.model) []) := by
  have hm : r.modelOf id = .ok o.model := modelOf_eq_ok_iff.mpr (modelOf?_of_object? ho)
  have hcontains : within.contains o.model = true := List.contains_iff_mem.mpr hmem
  unfold captureComposite
  simp only [hm, bind, Except.bind, hcontains, if_true]

theorem captureFields_congr {c c' : ObjectId → Except Error Snapshot} {f g : Table String Value}
    (h : f.Fieldwise (fun a b => r.captureWith c a = r'.captureWith c' b) g) :
    r.captureFields c f = r'.captureFields c' g := by
  refine mapM_congr (List.Forall₂.imp (fun a b hab => ?_) h)
  rw [hab.1, hab.2]

/-! ## What looks alike -/

/-- Every composite, a template included, has the fields of the template of its datatype. -/
theorem Consistent.follows_template (h : r.Consistent) {id : ObjectId} {m : ModelId}
    {d : Datatype κ} {f fT : Table String Value} (ho : r.object? id = some (.composite m f))
    (hd : r.model? m = some (.datatype d)) (hT : r.object? d.template = some (.composite m fT)) :
    fT.Fieldwise (r.Follows (r.registeredName id)) f := by
  by_cases hid : id = d.template
  · subst hid
    obtain rfl : fT = f := (composite_unique hT ho).2
    rw [h.wellFormed.registeredName_template hd]
    exact .of_self fun v hv => follows_self h.wellFormed (h.tidy.denotes ho hv)
  · exact h.coherent.synced trivial hid ho hd hT

/-- Collections of one element, capacity and name look alike. -/
theorem captureWith_collection {x y : ObjectId} {s t : Shape} (hx : r.shape x = .ok s)
    (hy : r.shape y = .ok t) (hname : t.name = s.name) (helement : t.element = s.element)
    (hcapacity : t.capacity = s.capacity) (c : ObjectId → Except Error Snapshot) :
    r.captureWith c (.collection x) = r.captureWith c (.collection y) := by
  simp only [captureWith, layers, layersWithin, hx, hy, helement, bind, Except.bind]
  cases r.object s.element with
  | error e => rfl
  | ok o =>
    cases o with
    | composite m f => simp [hname, hcapacity]
    | collection m es =>
      cases r.layersWithin r.objects.size s.element with
      | error e => rfl
      | ok layers => simp [hname, hcapacity]

/-- Two copies of one value under one path look alike, if composites with one path do. -/
theorem Follows.captureWith_eq {under : String} {v a b : Value} (ha : r.Follows under v a)
    (hb : r.Follows under v b) {c : ObjectId → Except Error Snapshot}
    (hc : ∀ {x y m f g}, r.object? x = some (.composite m f) →
      r.object? y = some (.composite m g) → r.registeredName x = r.registeredName y →
      c x = c y) : r.captureWith c a = r.captureWith c b := by
  cases ha with
  | accessor leaf =>
    cases hb
    rfl
  | scalar s =>
    cases hb
    rfl
  | composite hv ha hname =>
    cases hb with
    | composite hv' hb hname' =>
      obtain ⟨rfl, rfl⟩ := composite_unique hv hv'
      exact hc ha hb (hname.trans hname'.symm)
  | collection hv ha hname helement hcapacity =>
    cases hb with
    | collection hv' hb hname' helement' hcapacity' =>
      obtain rfl := Except.ok.inj (hv.symm.trans hv')
      exact captureWith_collection ha hb (hname'.trans hname.symm)
        (helement'.trans helement.symm) (hcapacity'.trans hcapacity.symm) c

/-- Composites of one datatype with one path look alike. By induction on the depth: both follow the
same template under the same path, and so do the composites inside. -/
theorem Consistent.captureComposite_eq (h : r.Consistent) {depth : Nat} {within : List ModelId}
    {x y : ObjectId} {m : ModelId} {f g : Table String Value}
    (hx : r.object? x = some (.composite m f)) (hy : r.object? y = some (.composite m g))
    (hname : r.registeredName x = r.registeredName y) :
    r.captureComposite depth within x = r.captureComposite depth within y := by
  induction depth generalizing within x y m f g with
  | zero => rw [captureComposite_zero hx, captureComposite_zero hy]
  | succ depth ih =>
    obtain ⟨d, hd⟩ := h.wellFormed.composite hx
    obtain ⟨fT, hT⟩ := h.wellFormed.template hd
    -- What the two have for a role follows one value of the template under one path.
    have hf := h.follows_template hx hd hT
    have hg := h.follows_template hy hd hT
    rw [hname] at hf
    have halike : f.Fieldwise (fun a b =>
        r.captureWith (r.captureComposite depth (m :: within)) a =
          r.captureWith (r.captureComposite depth (m :: within)) b) g :=
      hf.join hg fun v a b ha hb => ha.captureWith_eq hb ih
    rw [captureComposite_succ hx, captureComposite_succ hy, captureFields_congr halike]

/-- Two copies of one value under one path look alike. -/
theorem Consistent.snapshot_eq (h : r.Consistent) {under : String} {v a b : Value}
    (ha : r.Follows under v a) (hb : r.Follows under v b) : r.snapshot a = r.snapshot b :=
  ha.captureWith_eq hb h.captureComposite_eq

/-! ## What additions do not change -/

namespace Extends

variable (hext : r.Extends r')

include hext

theorem nameOf {m : ModelId} {model : Model κ} (hm : r.model? m = some model) :
    r'.nameOf m = r.nameOf m := by
  cases model with
  | shape s => simp [Repository.nameOf, hm, hext.shape hm]
  | datatype d =>
    obtain ⟨g, hg⟩ := hext.datatype hm
    simp [Repository.nameOf, hm, hg, Model.name]

theorem nameOf_object (hr : r.WellFormed) {id : ObjectId} {o : Object}
    (ho : r.object? id = some o) : r'.nameOf o.model = r.nameOf o.model := by
  obtain ⟨model, hm⟩ : ∃ model, r.model? o.model = some model := by
    have hlt := hr.model_lt ho
    simp [model?, hlt]
  exact hext.nameOf hm

theorem label (hr : r.WellFormed) {id : ObjectId} {o : Object} (ho : r.object? id = some o) :
    r'.label id = r.label id := by
  have hmodel : r.modelOf? id = some o.model := modelOf?_of_object? ho
  have hmodel' : r'.modelOf? id = some o.model := by
    rw [hext.modelOf? (index_lt_of_object? ho), hmodel]
  simp only [Repository.label, hmodel, hmodel', hext.nameOf_object hr ho]

theorem shape_eq (hr : r.WellFormed) {id : ObjectId} (hid : id.index < r.objects.size) :
    r'.shape id = r.shape id := by
  cases ho : r.object? id with
  | none => simp only [Repository.shape, hext.object? hid, ho]
  | some o =>
    cases o with
    | composite m f => simp only [Repository.shape, hext.object? hid, ho, hext.label hr ho]
    | collection m es =>
      obtain ⟨s, hshape⟩ := hr.shape_of_collection ho
      rw [hshape, hext.shape_ok hshape]

/-- The layers of a collection are what they were, and any depth does that exceeds its number, since
an element is older than its collection. -/
theorem layersWithin_eq (hr : r.WellFormed) {depth depth' : Nat} {id : ObjectId}
    (hdepth : id.index < depth) (hdepth' : id.index < depth') (hid : id.index < r.objects.size) :
    r'.layersWithin depth' id = r.layersWithin depth id := by
  induction depth generalizing depth' id with
  | zero => omega
  | succ depth ih =>
    cases depth' with
    | zero => omega
    | succ depth' =>
      rw [layersWithin, layersWithin, hext.shape_eq hr hid]
      cases hs : r.shape id with
      | error e => rfl
      | ok s =>
        have hlt := hr.element_lt hs
        have hobject : r'.object s.element = r.object s.element := by
          simp only [object, hext.object? (Nat.lt_trans hlt hid)]
        have hlayers := @ih depth' s.element (by omega) (by omega) (by omega)
        simp only [bind, Except.bind, hobject, hlayers]

end Extends

/-- The innermost element of a collection is a live composite. -/
theorem composite_of_layersWithin {depth : Nat} {id core : ObjectId} {shapes : List Shape}
    (h : r.layersWithin depth id = .ok (shapes, core)) :
    ∃ m f, r.object? core = some (.composite m f) := by
  induction depth generalizing id shapes with
  | zero => simp [layersWithin] at h
  | succ depth ih =>
    obtain ⟨s, -, h⟩ := bind_eq_ok_iff.mp h
    obtain ⟨o, ho, h⟩ := bind_eq_ok_iff.mp h
    cases o with
    | composite m f =>
      obtain ⟨-, rfl⟩ := Prod.mk.inj (Except.ok.inj h)
      exact ⟨m, f, object_eq_ok_iff.mp ho⟩
    | collection m es =>
      obtain ⟨⟨inner, core'⟩, hinner, h⟩ := bind_eq_ok_iff.mp h
      obtain ⟨-, rfl⟩ := Prod.mk.inj (Except.ok.inj h)
      exact ih hinner

namespace Extends

variable (hext : r.Extends r')

include hext

theorem captureWith_eq (hr : r.WellFormed) {c c' : ObjectId → Except Error Snapshot}
    (hc : ∀ {x m f}, r.object? x = some (.composite m f) → c' x = c x) {v : Value}
    (hv : r.Denotes v) : r'.captureWith c' v = r.captureWith c v := by
  cases v with
  | accessor path => rfl
  | scalar s => rfl
  | composite x =>
    obtain ⟨m, f, ho⟩ := hv
    exact hc ho
  | collection x =>
    have hlt : x.index < r.objects.size := hv.index_lt rfl
    have hle := hext.objects_le
    have hlayers : r'.layers x = r.layers x :=
      hext.layersWithin_eq hr (by omega) (by omega) hlt
    simp only [captureWith, hlayers, bind, Except.bind]
    cases h : r.layers x with
    | error e => rfl
    | ok layers =>
      obtain ⟨m, f, ho⟩ := composite_of_layersWithin h
      simp only [hc ho]

/-- The datatypes that are being captured further out are all different. So there is room for one
more as long as the depth lasts, and where it is used up the datatype is among them. -/
theorem captureComposite_eq (hr : r.WellFormed) (ht : r.Tidy) {depth depth' : Nat}
    {within : List ModelId} {id : ObjectId} {m : ModelId} {f : Table String Value}
    (hnodup : within.Nodup) (hlt : ∀ a ∈ within, a.index < r.models.size)
    (hdepth : r.models.size ≤ depth + within.length) (hdepth' : depth ≤ depth')
    (ho : r.object? id = some (.composite m f)) :
    r'.captureComposite depth' within id = r.captureComposite depth within id := by
  obtain ⟨d, hd⟩ := hr.composite ho
  have hname : r'.nameOf m = r.nameOf m := hext.nameOf hd
  have ho' := hext.object?_some ho
  have hlt' : ∀ a ∈ m :: within, a.index < r.models.size := by
    intro a ha
    rcases List.mem_cons.mp ha with rfl | ha
    · exact index_lt_of_model? hd
    · exact hlt a ha
  induction depth generalizing depth' within id m f d with
  | zero =>
    -- There is no model left that is not being captured further out.
    have hmem : m ∈ within := by
      by_contra hm
      have hle := length_le_of_nodup (fun _ _ h => ModelId.eq_iff.mpr h)
        (List.nodup_cons.mpr ⟨hm, hnodup⟩) hlt'
      rw [List.length_cons] at hle
      omega
    rw [captureComposite_zero ho]
    cases depth' with
    | zero => rw [captureComposite_zero ho', hname]
    | succ depth' =>
      rw [captureComposite_succ ho', if_pos (List.contains_iff_mem.mpr hmem), hname]
  | succ depth ih =>
    cases depth' with
    | zero => omega
    | succ depth' =>
      rw [captureComposite_succ ho, captureComposite_succ ho', hname]
      split
      · rfl
      · next hnot =>
        have hm : m ∉ within := fun hm => hnot (List.contains_iff_mem.mpr hm)
        have hfields : f.Fieldwise (fun a b =>
            r'.captureWith (r'.captureComposite depth' (m :: within)) a =
              r.captureWith (r.captureComposite depth (m :: within)) b) f := by
          refine .of_self fun v hv => hext.captureWith_eq hr (fun {x n g} hx => ?_)
            (ht.denotes ho hv)
          obtain ⟨e, he⟩ := hr.composite hx
          refine ih (List.nodup_cons.mpr ⟨hm, hnodup⟩) hlt' ?_ (by omega) hx e he (hext.nameOf he)
            (hext.object?_some hx) fun a ha => ?_
          · rw [List.length_cons]
            omega
          · rcases List.mem_cons.mp ha with rfl | ha
            · exact index_lt_of_model? he
            · exact hlt' a ha
        rw [captureFields_congr hfields]

/-- What was there looks as it did. -/
theorem snapshot_eq (hr : r.WellFormed) (ht : r.Tidy) {v : Value} (hv : r.Denotes v) :
    r'.snapshot v = r.snapshot v :=
  hext.captureWith_eq hr (fun ho => hext.captureComposite_eq hr ht List.nodup_nil (by simp)
    (by simp) hext.models_le ho) hv

theorem captureWith_ok (hr : r.WellFormed) {c c' : ObjectId → Except Error Snapshot}
    (hc : ∀ {x image}, c x = .ok image → c' x = .ok image) {v : Value} {image : Snapshot}
    (h : r.captureWith c v = .ok image) : r'.captureWith c' v = .ok image := by
  cases v with
  | accessor path => exact h
  | scalar s => exact h
  | composite x => exact hc h
  | collection x =>
    obtain ⟨⟨shapes, core⟩, hlayers, h⟩ := bind_eq_ok_iff.mp h
    obtain ⟨inner, hinner, h⟩ := bind_eq_ok_iff.mp h
    obtain ⟨s, hs, -⟩ := bind_eq_ok_iff.mp hlayers
    obtain ⟨m, es, ho, -⟩ := shape_eq_ok_iff.mp hs
    have hlt := index_lt_of_object? ho
    have hle := hext.objects_le
    have hlayers' : r'.layers x = .ok (shapes, core) := by
      rw [← hlayers]
      exact hext.layersWithin_eq hr (by omega) (by omega) hlt
    exact bind_eq_ok_iff.mpr ⟨_, hlayers', bind_eq_ok_iff.mpr ⟨inner, hc hinner, h⟩⟩

/-- What has been captured is captured in the same way, also where something that is held is gone.
The depth is enough for the same reason as above. -/
theorem captureComposite_ok (hr : r.WellFormed) {depth depth' : Nat} {within : List ModelId}
    {id : ObjectId} {image : Snapshot} (hnodup : within.Nodup)
    (hlt : ∀ a ∈ within, a.index < r.models.size)
    (hdepth : r.models.size ≤ depth + within.length) (hdepth' : depth ≤ depth')
    (h : r.captureComposite depth within id = .ok image) :
    r'.captureComposite depth' within id = .ok image := by
  induction depth generalizing depth' within id image with
  | zero =>
    obtain ⟨m, hm, -⟩ := bind_eq_ok_iff.mp h
    obtain ⟨o, ho, rfl⟩ := modelOf?_eq_some_iff.mp (modelOf_eq_ok_iff.mp hm)
    -- There is no model left that is not being captured further out.
    have hmem : o.model ∈ within := by
      by_contra hmem
      have hle := length_le_of_nodup (fun _ _ h => ModelId.eq_iff.mpr h)
        (List.nodup_cons.mpr ⟨hmem, hnodup⟩) (List.forall_mem_cons.mpr ⟨hr.model_lt ho, hlt⟩)
      rw [List.length_cons] at hle
      omega
    rw [captureComposite_of_mem ho hmem] at h
    rw [captureComposite_of_mem (hext.object?_some ho) hmem, hext.nameOf_object hr ho, h]
  | succ depth ih =>
    obtain ⟨m, hm, h'⟩ := bind_eq_ok_iff.mp h
    obtain ⟨o, ho, rfl⟩ := modelOf?_eq_some_iff.mp (modelOf_eq_ok_iff.mp hm)
    by_cases hmem : o.model ∈ within
    · rw [captureComposite_of_mem ho hmem] at h
      rw [captureComposite_of_mem (hext.object?_some ho) hmem, hext.nameOf_object hr ho, h]
    · cases depth' with
      | zero => omega
      | succ depth' =>
        cases o with
        | collection m es =>
          -- A collection has no fields to capture.
          simp [hmem, fields, ho, bind, Except.bind] at h'
        | composite m f =>
          have hnot : ¬ within.contains m = true := fun h => hmem (List.contains_iff_mem.mp h)
          have hlt' : ∀ a ∈ m :: within, a.index < r.models.size :=
            List.forall_mem_cons.mpr ⟨hr.model_lt ho, hlt⟩
          rw [captureComposite_succ ho, if_neg hnot] at h
          obtain ⟨images, himages, -⟩ := map_eq_ok_iff.mp h
          have hfields : f.Fieldwise (fun a b =>
              r'.captureWith (r'.captureComposite depth' (m :: within)) a =
                r.captureWith (r.captureComposite depth (m :: within)) b) f := by
            refine .of_self fun v hv => ?_
            obtain ⟨field, hfield, rfl⟩ := List.mem_map.mp hv
            obtain ⟨captured, -, hcaptured⟩ := (mapM_eq_ok_iff.mp himages).exists_right hfield
            obtain ⟨inner, hinner, -⟩ := bind_eq_ok_iff.mp hcaptured
            rw [hinner]
            refine hext.captureWith_ok hr (fun {x image} hx => ?_) hinner
            refine ih (List.nodup_cons.mpr ⟨hmem, hnodup⟩) hlt' ?_ (by omega) hx
            rw [List.length_cons]
            omega
          have hname : r'.nameOf m = r.nameOf m := hext.nameOf_object hr ho
          rw [captureComposite_succ (hext.object?_some ho), if_neg hnot,
            captureFields_congr hfields, hname, h]

/-- What has a snapshot keeps it. -/
theorem snapshot_ok (hr : r.WellFormed) {v : Value} {image : Snapshot}
    (h : r.snapshot v = .ok image) : r'.snapshot v = .ok image :=
  hext.captureWith_ok hr (fun h => hext.captureComposite_ok hr List.nodup_nil (by simp) (by simp)
    hext.models_le h) h

end Extends

/-! ## What has a snapshot -/

/-- What every collection takes its elements from is live. -/
def HasContents (r : Repository ts) : Prop :=
  ∀ id s, r.shape id = .ok s → r.isLive s.element = true

namespace HasContents

variable (hlive : r.HasContents) (hr : r.WellFormed)

include hlive hr

theorem layersWithin_ok {depth : Nat} {id : ObjectId} {m : ModelId} {es : Table Nat Value}
    (hdepth : id.index < depth) (ho : r.object? id = some (.collection m es)) :
    ∃ layers, r.layersWithin depth id = .ok layers := by
  induction depth generalizing id m es with
  | zero => omega
  | succ depth ih =>
    obtain ⟨s, hshape⟩ := hr.shape_of_collection ho
    have hlt := hr.element_lt hshape
    obtain ⟨o, hoe⟩ := isLive_iff.mp (hlive id s hshape)
    have hobject : r.object s.element = .ok o := object_eq_ok_iff.mpr hoe
    cases o with
    | composite n f =>
      refine ⟨([s], s.element), ?_⟩
      simp only [layersWithin, hshape, bind, Except.bind, hobject]
    | collection n fs =>
      obtain ⟨⟨inner, core⟩, hinner⟩ := ih (by omega) hoe
      refine ⟨(s :: inner, core), ?_⟩
      simp only [layersWithin, hshape, bind, Except.bind, hobject, hinner]

theorem captureWith_ok {c : ObjectId → Except Error Snapshot}
    (hc : ∀ {x m f}, r.object? x = some (.composite m f) → ∃ image, c x = .ok image) {v : Value}
    (hv : r.Denotes v) : ∃ image, r.captureWith c v = .ok image := by
  cases v with
  | accessor path => exact ⟨_, rfl⟩
  | scalar s => exact ⟨_, rfl⟩
  | composite x =>
    obtain ⟨m, f, ho⟩ := hv
    exact hc ho
  | collection x =>
    obtain ⟨m, es, ho⟩ := hv
    have hlt := index_lt_of_object? ho
    obtain ⟨⟨shapes, core⟩, hlayers⟩ := hlive.layersWithin_ok hr (Nat.lt_succ_of_lt hlt) ho
    obtain ⟨n, f, hcore⟩ := composite_of_layersWithin hlayers
    obtain ⟨image, himage⟩ := hc hcore
    refine ⟨shapes.foldr (fun s element => .collection s.name s.capacity element) image, ?_⟩
    simp only [captureWith, layers, hlayers, bind, Except.bind, himage]

theorem captureComposite_ok (ht : r.Tidy) {depth : Nat} {within : List ModelId} {id : ObjectId}
    {m : ModelId} {f : Table String Value} (ho : r.object? id = some (.composite m f)) :
    ∃ image, r.captureComposite depth within id = .ok image := by
  induction depth generalizing within id m f with
  | zero => exact ⟨_, captureComposite_zero ho within⟩
  | succ depth ih =>
    rw [captureComposite_succ ho]
    split
    · exact ⟨_, rfl⟩
    · obtain ⟨images, himages⟩ : ∃ images,
          r.captureFields (r.captureComposite depth (m :: within)) f = .ok images := by
        refine exists_mapM_eq_ok fun field hfield => ?_
        have hv := ht.denotes ho (List.mem_map.mpr ⟨field, hfield, rfl⟩)
        obtain ⟨image, himage⟩ := hlive.captureWith_ok hr ih hv
        exact ⟨(field.1, image), by rw [himage]; rfl⟩
      rw [himages]
      exact ⟨_, rfl⟩

/-- Whatever denotes has a snapshot. -/
theorem snapshot_ok (ht : r.Tidy) {v : Value} (hv : r.Denotes v) :
    ∃ image, r.snapshot v = .ok image :=
  hlive.captureWith_ok hr (hlive.captureComposite_ok hr ht) hv

end HasContents

end Metamodel.Repository
