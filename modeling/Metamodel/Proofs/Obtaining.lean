import Metamodel.Proofs.Faithful

/-!
# Metamodel.Proofs.Obtaining -- which instances can be made

Where no datatype contains itself, whether an instance is made is decided by look-ups before
anything is added: the chain of aliases has to end, and where it ends in dimensions, these have to
be within bounds. Main statement: the value of a member is made exactly if the look-ups succeed.
-/

namespace Metamodel

variable {κ : Type} {ts : TypeSystem κ} {r : Repository ts}

namespace Repository

theorem checkContent_eq_ok_iff {id : ObjectId} :
    r.checkContent id = .ok () ↔
      (∃ m es, r.object? id = some (.collection m es)) ∨ r.assertTemplateKind id = .ok id := by
  unfold checkContent
  cases ho : r.object? id with
  | none => simp [assertTemplateKind, ho]
  | some o =>
    cases o with
    | collection m es => simp
    | composite m f =>
      cases hid : r.assertTemplateKind id with
      | error e => simp
      | ok x => simp [(assertTemplateKind_eq_ok_iff.mp hid).1]

/-- A constant bounds a collection if its value is a positive integer. -/
theorem resolveBound_constant_eq_ok_iff {id : ObjectId} {capacity : Option Nat} :
    r.resolveBound (.constant id) = .ok capacity ↔
      ∃ m n, r.modelOf? id = some m ∧ (r.entriesOf m).findSome? Entry.scalar? = some (.int n) ∧
        0 < n.toInt ∧ capacity = some n.toInt.toNat := by
  simp only [resolveBound]
  cases r.modelOf? id with
  | none => simp
  | some m =>
    cases hs : (r.entriesOf m).findSome? Entry.scalar? with
    | none => simp [hs]
    | some s =>
      cases s with
      | int n =>
        by_cases hn : 0 < n.toInt
        · simp [hs, hn, eq_comm]
        · simp [hs, hn]
      | _ => simp [hs]

/-- Nested collections can be made of the element, with the dimensions of the qualifier. -/
structure Spans (r : Repository ts) (element : ObjectId) (q : Qualifier) : Prop where
  content : r.checkContent element = .ok ()
  capacities : ∃ capacities, r.capacities q = .ok capacities

/-- An instance of the template can be made. -/
def Instantiable (r : Repository ts) (template : ObjectId) : Prop :=
  ∃ seed, r.seed template = .ok seed ∧ ∀ element q, seed = .nested element q → r.Spans element q

/-- A member of the datatype with the qualifiers has a value. -/
structure HasValue (r : Repository ts) (datatype : ObjectId) (qualifiers : List Qualifier) :
    Prop where
  template : r.assertTemplateKind datatype = .ok datatype
  dimensions : ∀ q, qualifiers.find? r.isCollectionQualifier = some q → r.Spans datatype q
  plain : qualifiers.find? r.isCollectionQualifier = none → r.Instantiable datatype

end Repository

namespace Step

theorem newCollections_spans (element : ObjectId) (q : Qualifier) (name : String) (owned : Bool) :
    (newCollections element q name owned).Ensures r (fun _ _ => r.Spans element q)
      fun _ _ => ¬ r.Spans element q := by
  simp only [newCollections, ensures_bind, ensures_query]
  refine ⟨fun _ hcontent => ⟨fun cs hcs => ?_, fun e he h => ?_⟩, fun e he h => ?_⟩
  · exact (nestCollections_answers element owned cs name).imp
      (fun _ _ _ => ⟨hcontent, cs, hcs⟩) fun _ _ h => h.elim
  · obtain ⟨cs, hcs⟩ := h.capacities
    simp [hcs] at he
  · simp [h.content] at he

/-- An instance is made if the chain of aliases ends, and what it ends in can be made. -/
theorem newInstance_instantiable (h : r.Orderly) (ht : r.TemplatesCopyable)
    (template : ObjectId) (under : String) (owned : Bool) :
    (newInstance template under owned).Ensures r (fun _ _ => r.Instantiable template)
      fun _ _ => ¬ r.Instantiable template := by
  -- A chain that ends in dimensions is seen through at once; what else is copied is made whole.
  have hseed : (instantiate owned (r.models.size + 1) template under).Ensures r
      (fun _ _ => r.Instantiable template)
      fun _ _ => ∀ element q, r.seed template = .ok (.nested element q) → ¬ r.Spans element q := by
    simp only [instantiate, ensures_bind, ensures_query]
    refine ⟨fun seed hseed => ?_, fun e he element q hseed => by simp [hseed] at he⟩
    cases seed with
    | nested element q =>
      rw [ensures_map]
      refine (newCollections_spans element q under owned).imp (fun _ _ hspans => ?_)
        fun _ _ hno element' q' hseed' => ?_
      · refine ⟨_, hseed, fun element' q' heq => ?_⟩
        obtain ⟨rfl, rfl⟩ := Seed.nested.inj heq
        exact hspans
      · obtain ⟨rfl, rfl⟩ := Seed.nested.inj (Except.ok.inj (hseed.symm.trans hseed'))
        exact hno
    | plain t =>
      exact (ensures_true _ r).imp (fun _ _ _ => ⟨_, hseed, by simp⟩)
        fun _ _ _ element q hseed' => by simp [hseed] at hseed'
  refine ((newInstance_ensures_iff.mpr hseed).and (newInstance_copies h ht template under
    owned)).imp (fun _ _ h' => h'.1) ?_
  rintro e r' ⟨hnested, -, hplain⟩ ⟨seed, hok, hspans⟩
  cases seed with
  | nested element q => exact hnested element q hok (hspans element q rfl)
  | plain t => exact hplain t hok

/-- The value of a member is made exactly if it has one. -/
theorem createRoleInstance_hasValue (h : r.Orderly) (ht : r.Tidy) (datatype : ObjectId)
    (role : String) (qualifiers : List Qualifier) :
    (createRoleInstance datatype role qualifiers).Ensures r
      (fun _ _ => r.HasValue datatype qualifiers) fun _ _ => ¬ r.HasValue datatype qualifiers := by
  simp only [createRoleInstance, ensures_bind, ensures_query, ensures_ask]
  refine ⟨fun x hx => ?_, fun e he hvalue => by simp [hvalue.template] at he⟩
  obtain rfl := (Repository.assertTemplateKind_eq_ok_iff.mp hx).1
  split
  · next q hq =>
    rw [ensures_map]
    refine (newCollections_spans x q role true).imp (fun _ _ hspans => ⟨hx, fun q' hq' => ?_, ?_⟩)
      fun _ _ hno hvalue => hno (hvalue.dimensions q hq)
    · exact Option.some.inj (hq.symm.trans hq') ▸ hspans
    · simp [hq]
  · next hnone =>
    refine (newInstance_instantiable h ht.templatesCopyable x role true).imp
      (fun _ _ hmade => ⟨hx, by simp [hnone], fun _ => hmade⟩)
      fun _ _ hno hvalue => hno (hvalue.plain hnone)

end Step

end Metamodel
