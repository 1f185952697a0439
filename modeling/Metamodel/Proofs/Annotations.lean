import Metamodel.Proofs.Representation
import Metamodel.Proofs.Retaining

/-!
# Metamodel.Proofs.Annotations -- annotations that were there when they were named

Whether a qualifier gives dimensions depends on the object that it names. A declaration that named
an object not made yet could turn an alias into a collection later on, with nothing edited. Main
statements: in every state of every run each qualifier in a declaration list names an object that
has been made; and therefore look-ups keep their answer where fields are written and objects are
added.
-/

namespace Metamodel

variable {κ : Type} {ts : TypeSystem κ} {r r' : Repository ts}

namespace Repository

/-! ## The invariant -/

/-- Each qualifier that a datatype declares names an object that has been made. -/
structure Annotated (r : Repository ts) : Prop where
  wellFormed : r.WellFormed
  made : ∀ {m d q}, r.model? m = some (.datatype d) → Entry.qualifier q ∈ d.entries →
    q.datatype.index < r.objects.size

theorem index_lt_of_isQualifier {q : Qualifier} (h : r.isQualifier q = true) :
    q.datatype.index < r.objects.size := by
  obtain ⟨k, hk, -⟩ := (Option.any_eq_true _ _).mp h
  obtain ⟨m, hm, -⟩ := Option.bind_eq_some_iff.mp hk
  obtain ⟨o, ho, -⟩ := modelOf?_eq_some_iff.mp hm
  exact index_lt_of_object? ho

/-- Declarations may get qualifiers that are there already. -/
theorem Annotated.step (h : r.Annotated) (hr' : r'.WellFormed)
    (hsize : r.objects.size ≤ r'.objects.size)
    (hentries : ∀ {m d' q}, r'.model? m = some (.datatype d') → Entry.qualifier q ∈ d'.entries →
      (∃ d, r.model? m = some (.datatype d) ∧ Entry.qualifier q ∈ d.entries) ∨
        r.isQualifier q = true) : r'.Annotated := by
  refine ⟨hr', fun hd' hq => Nat.lt_of_lt_of_le ?_ hsize⟩
  rcases hentries hd' hq with ⟨d, hd, hold⟩ | hthere
  · exact h.made hd hold
  · exact index_lt_of_isQualifier hthere

theorem Annotated.mapDatatype (h : r.Annotated) {m : ModelId} {f : Datatype κ → Datatype κ}
    (hr' : (r.mapDatatype m f).WellFormed)
    (hf : ∀ d q, Entry.qualifier q ∈ (f d).entries →
      Entry.qualifier q ∈ d.entries ∨ r.isQualifier q = true) : (r.mapDatatype m f).Annotated := by
  refine h.step hr' (Nat.le_refl _) fun {n d' q} hd' hq => ?_
  obtain ⟨d, hd, rfl⟩ := model?_mapDatatype_datatype.mp hd'
  split at hq
  · exact (hf d q hq).imp_left fun hq => ⟨d, hd, hq⟩
  · exact Or.inl ⟨d, hd, hq⟩

theorem annotated_robust : Robust (Annotated : Repository ts → Prop) where
  wellFormed := Annotated.wellFormed
  grew h hr' := by
    refine h.step hr'.1 hr'.2.objects_le fun hd' hq => ?_
    obtain ⟨d, g, hd, rfl⟩ := hr'.2.datatype_of hd'
    exact Or.inl ⟨d, hd, hq⟩
  addTemplate name kind h := by
    refine h.step (h.wellFormed.addTemplate name kind) (by simp) fun {m d' q} hd' hq => ?_
    rw [model?_addTemplate] at hd'
    split at hd'
    · -- The new datatype declares nothing.
      obtain rfl := Model.datatype.inj (Option.some.inj hd')
      simp [freshDatatype] at hq
    · exact Or.inl ⟨d', hd', hq⟩
  mapEntries m f hf h :=
    h.mapDatatype (h.wellFormed.mapEntries m f) fun d q => hf.annotating d.entries q
  annotate m f hf h := h.mapDatatype (h.wellFormed.mapEntries m f) fun d q => hf d.entries q
  putQualifiers m qs h := h.mapDatatype (h.wellFormed.putQualifiers m qs) fun _ _ => Or.inl
  putScope m _ h hs := h.mapDatatype (h.wellFormed.putScope m hs) fun _ _ => Or.inl
  writeElement id index value h :=
    h.step (h.wellFormed.writeElement id index value) (by simp) fun hd' hq =>
      Or.inl ⟨_, by simpa using hd', hq⟩
  writeField id role value h :=
    h.step (h.wellFormed.writeField id role value) (by simp) fun hd' hq =>
      Or.inl ⟨_, by simpa using hd', hq⟩
  free h hid := by
    refine h.step (h.wellFormed.free hid) (steady_free _).objects_le fun hd' hq => ?_
    obtain ⟨d, g, hd, rfl⟩ := datatype_of_free hd'
    exact Or.inl ⟨d, hd, hq⟩

theorem annotated_empty : (Repository.empty ts).Annotated :=
  ⟨wellFormed_empty, fun hd => by simp at hd⟩

end Repository

open Repository (annotated_robust annotated_empty)

theorem Operation.annotated_run (ts : TypeSystem κ) (operations : List (Operation κ)) :
    (run (Repository.empty ts) operations).Annotated :=
  run_robust annotated_robust annotated_empty operations

theorem Idl.Operation.annotated_run (limits : Limits) (operations : List Operation) :
    (run (initial limits) operations).Annotated :=
  run_robust annotated_robust (initial_of_empty annotated_robust.toDeclarative annotated_empty)
    operations

/-! ## Look-ups -/

namespace Entry

theorem mem_of_splitTarget? {entries rest : List Entry} {target : ObjectId} {e : Entry}
    (h : splitTarget? entries = some (target, rest)) (he : e ∈ .type target :: rest) :
    e ∈ entries := by
  induction entries with
  | nil => simp [splitTarget?] at h
  | cons first more ih =>
    cases first with
    | type t =>
      obtain ⟨rfl, rfl⟩ := Prod.mk.inj (Option.some.inj h)
      exact he
    | qualifier q => exact List.mem_cons_of_mem _ (ih h)
    | member m => exact List.mem_cons_of_mem _ (ih h)
    | value name s => exact List.mem_cons_of_mem _ (ih h)

theorem qualifier?_eq_some_iff {e : Entry} {q : Qualifier} :
    e.qualifier? = some q ↔ e = .qualifier q := by
  cases e <;> simp [qualifier?]

end Entry

namespace Repository

variable {F : ModelId → Prop}

/-- An object that has been made keeps its kind, and gets none if it has none. -/
theorem SameBut.kind?_eq (h : r.SameBut F (fun _ => False) r') (hr : r.WellFormed) {id : ObjectId}
    (hid : id.index < r.objects.size) : r'.kind? id = r.kind? id := by
  rw [Repository.kind?, Repository.kind?, h.modelOf? hid]
  cases hm : r.modelOf? id with
  | none => rfl
  | some m =>
    obtain ⟨o, ho, rfl⟩ := modelOf?_eq_some_iff.mp hm
    have hlt : o.model.index < r.models.size := hr.model_lt ho
    obtain ⟨model, hmodel⟩ : ∃ model, r.model? o.model = some model := by
      simp [Repository.model?, hlt]
    show r'.kindOf? o.model = r.kindOf? o.model
    cases model with
    | shape s => simp [Repository.kindOf?, hmodel, h.shape hmodel]
    | datatype d => rw [h.kindOf? hmodel, kindOf?_eq_some_iff.mpr ⟨d, hmodel, rfl⟩]

/-- Where no declaration changes, aliases stay what they are. -/
theorem SameBut.retainsAliases (h : r.SameBut F (fun _ => False) r') (hr : r.Annotated) :
    r.RetainsAliases r' where
  preserves := h.preserves
  datatype hd := by
    obtain ⟨d', hd', hk, ht, -⟩ := h.datatype hd
    exact ⟨d', hd', hk, ht⟩
  value hd := by rw [h.entriesOf hd not_false]
  aliasDefinition {m definition} ha hdef := by
    obtain ⟨k, hk, -⟩ := (Option.any_eq_true _ _).mp ha
    obtain ⟨d, hd, -⟩ := kindOf?_eq_some_iff.mp hk
    unfold Repository.aliasDefinition at hdef ⊢
    rw [h.entriesOf hd not_false]
    cases hsplit : Entry.splitTarget? (r.entriesOf m) with
    | none => simp [hsplit] at hdef
    | some split =>
      simp only [hsplit] at hdef ⊢
      rw [← hdef]
      congr 2
      refine List.filter_congr fun q hq => ?_
      -- The annotation was there when it was named.
      obtain ⟨e, he, heq⟩ := List.mem_filterMap.mp hq
      obtain rfl := Entry.qualifier?_eq_some_iff.mp heq
      have hmem := Entry.mem_of_splitTarget? hsplit (List.mem_cons_of_mem _ he)
      rw [entriesOf_datatype hd] at hmem
      rw [isCollectionQualifier, isCollectionQualifier, h.kind?_eq hr.wellFormed (hr.made hd hmem)]

end Repository

end Metamodel
