import Metamodel.Proofs.Growth

/-!
# Metamodel.Proofs.Steady -- what no operation changes

Objects come and go, fields and declarations change, but datatypes stay and keep their kind and
their canonical template, and an object never turns into one of another datatype. `r.Steady r'` says
so of what was there in `r`; every change of a repository satisfies it.
-/

namespace Metamodel.Repository

variable {κ : Type} {ts : TypeSystem κ} {r r' : Repository ts}

/-- Datatypes keep their kind and their template, no object is bound to another model than it was,
and none that was there has become a template. -/
structure Steady (r r' : Repository ts) : Prop where
  objects_le : r.objects.size ≤ r'.objects.size
  modelOf? : ∀ {id n}, id.index < r.objects.size → r'.modelOf? id = some n →
    r.modelOf? id = some n
  datatype : ∀ {m d}, r.model? m = some (.datatype d) →
    ∃ d', r'.model? m = some (.datatype d') ∧ d'.kind = d.kind ∧ d'.template = d.template
  template : ∀ {m d'}, r'.model? m = some (.datatype d') → d'.template.index < r.objects.size →
    ∃ d, r.model? m = some (.datatype d) ∧ d.template = d'.template

theorem Steady.refl (r : Repository ts) : r.Steady r :=
  ⟨Nat.le_refl _, fun _ h => h, fun h => ⟨_, h, rfl, rfl⟩, fun h _ => ⟨_, h, rfl⟩⟩

theorem Steady.trans {r'' : Repository ts} (h : r.Steady r') (h' : r'.Steady r'') :
    r.Steady r'' where
  objects_le := Nat.le_trans h.objects_le h'.objects_le
  modelOf? hid hn := h.modelOf? hid (h'.modelOf? (Nat.lt_of_lt_of_le hid h.objects_le) hn)
  datatype hd := by
    obtain ⟨d', hd', hk, ht⟩ := h.datatype hd
    obtain ⟨d'', hd'', hk', ht'⟩ := h'.datatype hd'
    exact ⟨d'', hd'', hk'.trans hk, ht'.trans ht⟩
  template := by
    intro m d'' hd'' hlt
    obtain ⟨d', hd', ht'⟩ := h'.template hd'' (Nat.lt_of_lt_of_le hlt h.objects_le)
    obtain ⟨d, hd, ht⟩ := h.template hd' (ht' ▸ hlt)
    exact ⟨d, hd, ht.trans ht'⟩

theorem Steady.noTemplate (h : r.Steady r') {id : ObjectId} (hid : id.index < r.objects.size)
    (hno : r.NoTemplate id) : r'.NoTemplate id := by
  rintro m d' hd' rfl
  obtain ⟨d, hd, ht⟩ := h.template hd' hid
  exact hno m d hd ht

theorem Extends.steady (h : r.Extends r') : r.Steady r' where
  objects_le := h.objects_le
  modelOf? hid hn := by rwa [h.modelOf? hid] at hn
  datatype hd := by
    obtain ⟨g, hg⟩ := h.datatype hd
    exact ⟨_, hg, rfl, rfl⟩
  template := by
    intro m d' hd' _
    obtain ⟨d, g, hd, rfl⟩ := h.datatype_of hd'
    exact ⟨d, hd, rfl⟩

theorem steady_mapDatatype {k : ModelId} {f : Datatype κ → Datatype κ}
    (hf : ∀ d, (f d).kind = d.kind ∧ (f d).template = d.template) :
    r.Steady (r.mapDatatype k f) where
  objects_le := Nat.le_of_eq rfl
  modelOf? _ hn := hn
  datatype hd := by
    refine ⟨_, model?_mapDatatype_datatype.mpr ⟨_, hd, rfl⟩, ?_⟩
    split
    · exact hf _
    · exact ⟨rfl, rfl⟩
  template := by
    intro m d' hd' _
    obtain ⟨d, hd, rfl⟩ := model?_mapDatatype_datatype.mp hd'
    refine ⟨d, hd, ?_⟩
    split
    · exact (hf d).2.symm
    · rfl

theorem steady_writeField (id : ObjectId) (role : String) (value : Option Value) :
    r.Steady (r.writeField id role value) where
  objects_le := by simp
  modelOf? _ hn := by rwa [modelOf?_writeField] at hn
  datatype h := ⟨_, by simpa using h, rfl, rfl⟩
  template h _ := ⟨_, by simpa using h, rfl⟩

theorem steady_writeElement (id : ObjectId) (index : Nat) (value : Value) :
    r.Steady (r.writeElement id index value) where
  objects_le := by simp
  modelOf? _ hn := by rwa [modelOf?_writeElement] at hn
  datatype h := ⟨_, by simpa using h, rfl, rfl⟩
  template h _ := ⟨_, by simpa using h, rfl⟩

theorem steady_addTemplate (name : String) (kind : κ) : r.Steady (r.addTemplate name kind) where
  objects_le := by simp
  modelOf? := by
    intro id n hid hn
    have hne : id ≠ r.nextObject := by
      rintro rfl
      exact Nat.lt_irrefl _ hid
    unfold Repository.modelOf? at hn ⊢
    rwa [object?_addTemplate, if_neg hne] at hn
  datatype hd := ⟨_, by rw [model?_addTemplate, if_neg (ne_nextModel hd), hd], rfl, rfl⟩
  template := by
    intro m d' hd' hlt
    rw [model?_addTemplate] at hd'
    split at hd'
    · obtain rfl := Model.datatype.inj (Option.some.inj hd')
      exact (Nat.lt_irrefl _ hlt).elim
    · exact ⟨d', hd', rfl⟩

theorem steady_free (id : ObjectId) : r.Steady (r.free id) where
  objects_le := by
    unfold free
    split
    · exact Nat.le_of_eq (size_objects_dropObject ..).symm
    · exact Nat.le_refl _
  modelOf? := by
    intro k n _ hn
    unfold Repository.modelOf? at hn ⊢
    rw [object?_free] at hn
    split at hn
    · simp at hn
    · exact hn
  datatype hd := by
    refine ⟨_, model?_free_datatype.mpr ⟨_, hd, rfl⟩, ?_⟩
    split
    · exact ⟨rfl, rfl⟩
    · exact ⟨rfl, rfl⟩
  template := by
    intro m d' hd' _
    obtain ⟨d, _, hd, rfl⟩ := datatype_of_free hd'
    exact ⟨d, hd, rfl⟩

theorem steady_freeAll (ids : List ObjectId) : r.Steady (r.freeAll ids) := by
  induction ids generalizing r with
  | nil => exact .refl r
  | cons id rest ih => exact (steady_free id).trans ih

end Metamodel.Repository
