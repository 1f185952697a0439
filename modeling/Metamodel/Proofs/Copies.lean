import Metamodel.Proofs.Alias
import Metamodel.Proofs.Fieldwise
import Metamodel.Proofs.Growth

/-!
# Metamodel.Proofs.Copies -- copies and instances of whatever is given

The general half of what is known of `newInstance`, `cloneValue` and `createRoleInstance`: in every
well-formed repository, for all arguments, and however they end, they only add, and the answer is
held by no new object. A composite that is made is bound to the datatype that its template comes to.
When they succeed is another matter and depends on which datatypes hold which.
-/

namespace Metamodel.Step

open Repository (Loose object?_withInstance)

variable {κ : Type} {ts : TypeSystem κ} {r : Repository ts}

/-- A step that makes a value which nothing holds. -/
def MakesValue (x : Step ts Value) (r : Repository ts) : Prop :=
  x.Ensures r (fun v r' => Grew r r' ∧ Loose r r' v) fun _ => Grew r

theorem MakesCollection.makesValue {x : Step ts ObjectId} (h : MakesCollection x r)
    (hr : r.WellFormed) :
    MakesValue (Value.collection <$> x) r := by
  rw [MakesValue, ensures_map]
  exact Ensures.imp h (fun _ _ h' => ⟨h'.1, h'.2.1⟩) fun _ _ h' => h'.symm ▸ grew_refl hr

/-! ## Copies of fields -/

theorem cloneWith_makes (h : r.WellFormed) {make : ObjectId → String → Step ts Value}
    {owned : Bool} {value : Value} {under : String}
    (hmake : ∀ id, value = .composite id → MakesValue (make id under) r) :
    MakesValue (cloneWith make owned value under) r := by
  cases value with
  | accessor path => exact ⟨grew_refl h, .of_leaf rfl⟩
  | scalar s => exact ⟨grew_refl h, .of_leaf rfl⟩
  | composite id => exact hmake id rfl
  | collection id => exact (copyCollection_makes h id under owned).makesValue h

/-- Copies of fields keep the roles in their order, and nothing holds what they refer to. -/
theorem cloneFieldsWith_ensures (h : r.WellFormed) {make : ObjectId → String → Step ts Value}
    {owned : Bool} {under : String} (fields : Table String Value)
    (hmake : ∀ r₁, Grew r r₁ → ∀ id, MakesValue (make id under) r₁) :
    (cloneFieldsWith make owned fields under).Ensures r
      (fun copies r' => Grew r r' ∧ fields.Fieldwise (fun _ copy => Loose r r' copy) copies)
      fun _ => Grew r := by
  rw [cloneFieldsWith, ensures_bind]
  refine (ensures_mapEach (P := Grew r)
    (R := fun r₁ field copy => copy.1 = field.1 ∧ Loose r r₁ copy.2)
    fields.entries ?_ (grew_refl h)).imp ?_ fun _ _ h => h
  · intro field _ r₁ h₁
    simp only [ensures_bind, ensures_pure]
    refine (cloneWith_makes h₁.1 fun id _ => hmake r₁ h₁ id).imp ?_ fun _ _ h₂ => h₁.trans h₂
    rintro copy r₂ ⟨h₂, hloose⟩
    exact ⟨h₁.trans h₂, fun _ _ h => ⟨h.1, h.2.extend h₂.2⟩, trivial, .since h₁.2 hloose h₂.2⟩
  · rintro copies r' ⟨h', -, hcopies⟩
    exact ⟨h', hcopies⟩

/-! ## Instances -/

theorem ensures_addInstance {m : ModelId} {fields : Table String Value} {path : String}
    {ok : ObjectId → Repository ts → Prop} {fails : Error → Repository ts → Prop} :
    (addInstance m fields path).Ensures r ok fails ↔
      ok r.nextObject (r.withInstance m fields path) := by
  simp only [addInstance, ensures_bind, ensures_ask, ensures_edit, ensures_note, ensures_pure]
  rfl

/-- Adding an instance of values that nothing holds. -/
theorem Grew.withInstance {r₀ : Repository ts} (h : Grew r₀ r) {m : ModelId} {d : Datatype κ}
    {fields : Table String Value} (path : String) (hd : r.model? m = some (.datatype d))
    (hroles : fields.keys.Nodup)
    (hkind : ts.isTemplate d.kind = true ∧ ts.isAlias d.kind = false ∧ ts.isLeaf d.kind = false)
    (hloose : ∀ v ∈ fields.values, Loose r₀ r v) : Grew r₀ (r.withInstance m fields path) :=
  ⟨h.1.withInstance path hd hroles hkind, h.2.withInstance path hd hloose⟩

/-- Adding an instance with copies of the fields that a composite of the datatype had at first. -/
theorem Grew.withCopies {r₀ : Repository ts} (h : Grew r₀ r) (hr₀ : r₀.WellFormed) {m : ModelId}
    {d : Datatype κ} {id : ObjectId} {fields copies : Table String Value}
    {R : Value → Value → Prop} (path : String) (hd : r₀.model? m = some (.datatype d))
    (hkind : ts.isTemplate d.kind = true ∧ ts.isAlias d.kind = false ∧ ts.isLeaf d.kind = false)
    (ho : r₀.object? id = some (.composite m fields)) (hcopies : fields.Fieldwise R copies)
    (hR : ∀ v w, R v w → Loose r₀ r w) :
    Grew r₀ (r.withInstance m copies path) ∧
      Loose r₀ (r.withInstance m copies path) (.composite r.nextObject) := by
  obtain ⟨g, hg⟩ := h.2.datatype hd
  have hroles : copies.keys.Nodup := by
    rw [hcopies.keys_eq]
    exact hr₀.roles_nodup ho
  have hloose : ∀ w ∈ copies.values, Loose r₀ r w := by
    intro w hw
    obtain ⟨v, -, hvw⟩ := hcopies.of_mem_right hw
    exact hR v w hvw
  exact ⟨h.withInstance path hg hroles hkind hloose, h.2.loose_withInstance path hloose⟩

/-- One round of `instantiate` in a well-formed repository: it ends with an error of the seed, a
collection, an accessor, or a composite with copies of the fields of the canonical template. -/
theorem instantiate_ensures (hr : r.WellFormed) {owned : Bool} {depth : Nat} {id : ObjectId}
    {under : String} {ok : Value → Repository ts → Prop} {fails : Error → Repository ts → Prop}
    (hrefused : ∀ e, r.seed id = .error e → fails e r)
    (hnested : ∀ element q, r.seed id = .ok (.nested element q) →
      (newCollections element q under owned).Ensures r (fun y => ok (.collection y)) fails)
    (hleaf : ∀ t m, r.seed id = .ok (.plain t) → r.IsPlain t m → r.isLeaf m = true →
      ok (.accessor (Path.join under (r.registeredName t))) r)
    (hcomposite : ∀ t m d f, r.seed id = .ok (.plain t) → r.IsPlain t m →
      r.model? m = some (.datatype d) →
      ts.isTemplate d.kind = true ∧ ts.isAlias d.kind = false ∧ ts.isLeaf d.kind = false →
      r.object? d.template = some (.composite m f) →
      (cloneFieldsWith (instantiate owned depth) owned f
        (Path.join under (r.registeredName t))).Ensures r
          (fun copies r' => ok (.composite r'.nextObject)
            (r'.withInstance m copies (Path.join under (r.registeredName t)))) fails) :
    (instantiate owned (depth + 1) id under).Ensures r ok fails := by
  simp only [instantiate, ensures_bind, ensures_query]
  refine ⟨fun seed hseed => ?_, hrefused⟩
  cases seed with
  | nested element q =>
    rw [ensures_map]
    exact hnested element q hseed
  | plain t =>
    obtain ⟨⟨m, hplain⟩, -⟩ := Repository.seed_plain hseed
    have hm : r.modelOf t = .ok m := Repository.modelOf_eq_ok_iff.mpr hplain.modelOf?
    obtain ⟨d, hd, htemplate, halias⟩ := hplain.datatype
    obtain ⟨f, hf⟩ := hr.template hd
    have hfields : r.fields ((r.template? m).getD t) = .ok f := by
      rw [Repository.template?_datatype hd]
      exact Repository.fields_eq_ok_iff.mpr ⟨m, hf⟩
    simp only [ensures_bind, ensures_query, ensures_ask, hm]
    refine ⟨fun m' hm' => ?_, fun e he => by simp at he⟩
    obtain rfl : m = m' := Except.ok.inj hm'
    split
    · next hleaf' => exact hleaf t m hseed hplain hleaf'
    · next hleaf' =>
      rw [Repository.isLeaf_datatype hd, Bool.not_eq_true] at hleaf'
      simp only [ensures_bind, ensures_query, ensures_map, ensures_addInstance, hfields]
      refine ⟨fun fields hfields' => ?_, fun e he => by simp at he⟩
      obtain rfl : f = fields := Except.ok.inj hfields'
      exact hcomposite t m d f hseed hplain hd ⟨htemplate, halias, hleaf'⟩ hf

/-- Whatever it is asked for, an instance is made by additions, and nothing holds it. -/
theorem instantiate_makes (h : r.WellFormed) (owned : Bool) (depth : Nat) (id : ObjectId)
    (under : String) : MakesValue (instantiate owned depth id under) r := by
  induction depth generalizing r id under with
  | zero => exact grew_refl h
  | succ depth ih =>
    apply instantiate_ensures h
    case hrefused => exact fun _ _ => grew_refl h
    case hnested =>
      intro element q _
      have hmakes := (newCollections_makes h element q under owned).makesValue h
      rwa [MakesValue, ensures_map] at hmakes
    case hleaf => exact fun _ _ _ _ _ => ⟨grew_refl h, .of_leaf rfl⟩
    case hcomposite =>
      intro t m d f _ _ hd hkind hf
      refine (cloneFieldsWith_ensures h f fun r₁ h₁ id => ih h₁.1 id _).imp ?_ fun _ _ h => h
      rintro copies r₁ ⟨h₁, hcopies⟩
      exact h₁.withCopies h _ hd hkind hf hcopies fun _ _ hloose => hloose

theorem run_newInstance (id : ObjectId) (under : String) (owned : Bool) (r : Repository ts) :
    (newInstance id under owned).run r =
      (instantiate owned (r.models.size + 1) id under).run r := by
  simp only [run, newInstance]

theorem newInstance_ensures_iff {id : ObjectId} {under : String} {owned : Bool}
    {ok : Value → Repository ts → Prop} {fails : Error → Repository ts → Prop} :
    (newInstance id under owned).Ensures r ok fails ↔
      (instantiate owned (r.models.size + 1) id under).Ensures r ok fails := by
  rw [Ensures, Ensures, run_newInstance]

theorem newInstance_makes (h : r.WellFormed) (id : ObjectId) (under : String) (owned : Bool) :
    MakesValue (newInstance id under owned) r :=
  newInstance_ensures_iff.mpr (instantiate_makes h owned _ id under)

theorem cloneValue_makes (h : r.WellFormed) (value : Value) (under : String) (owned : Bool) :
    MakesValue (cloneValue value under owned) r :=
  cloneWith_makes h fun id _ => newInstance_makes h id under owned

theorem createRoleInstance_makes (h : r.WellFormed) (datatype : ObjectId) (role : String)
    (qualifiers : List Qualifier) : MakesValue (createRoleInstance datatype role qualifiers) r := by
  simp only [MakesValue, createRoleInstance, ensures_bind, ensures_query, ensures_ask]
  refine ⟨fun datatype _ => ?_, fun _ _ => grew_refl h⟩
  split
  · exact (newCollections_makes h datatype _ role true).makesValue h
  · exact newInstance_makes h datatype role true

/-! ## What a new composite is bound to -/

/-- A composite that is made for a template is bound to what the template comes to. -/
theorem newInstance_bound (h : r.WellFormed) (id : ObjectId) (under : String) (owned : Bool) :
    (newInstance id under owned).Ensures r
      (fun v r' => ∀ y, v = .composite y →
        ∃ t m, r.seed id = .ok (.plain t) ∧ r.IsPlain t m ∧ r'.modelOf? y = some m)
      fun _ _ => True := by
  rw [newInstance_ensures_iff]
  apply instantiate_ensures h
  case hrefused => exact fun _ _ => trivial
  case hnested =>
    exact fun _ _ _ => (ensures_true _ _).imp (fun _ _ _ _ hy => by simp at hy) fun _ _ h => h
  case hleaf => exact fun _ _ _ _ _ _ hy => by simp at hy
  case hcomposite =>
    intro t m d f hseed hplain _ _ _
    refine (ensures_true _ _).imp (fun copies r₁ _ => ?_) fun _ _ h => h
    intro y hy
    obtain rfl : r₁.nextObject = y := by simpa using hy
    refine ⟨t, m, hseed, hplain, ?_⟩
    exact Repository.modelOf?_eq_some_iff.mpr ⟨_, by rw [object?_withInstance, if_pos rfl], rfl⟩

end Metamodel.Step
