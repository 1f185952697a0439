import Metamodel.Proofs.Following
import Metamodel.Proofs.Termination
import Metamodel.Proofs.Tidy

/-!
# Metamodel.Proofs.Faithful -- a copy follows what it was copied from

Where what templates hold is live and no template itself, as in a tidy repository, a value that one
of them holds can be copied, unless the depth is used up, and the copy follows it; every composite
made on the way has the fields of its template. Where no datatype contains itself, the depth is not
used up, so that copying such a value cannot fail. Main statement: an instance of anything is made
whole, or nothing is done.
-/

namespace Metamodel

variable {κ : Type} {ts : TypeSystem κ} {r r' r₀ : Repository ts}

namespace Repository

/-! ## What can be copied -/

/-- A value that denotes, and that is no template itself. -/
structure Copyable (r : Repository ts) (v : Value) : Prop where
  denotes : r.Denotes v
  noTemplate : ∀ x, v = .composite x → r.NoTemplate x

/-- What a live object holds can be copied. -/
theorem Tidy.copyable (h : r.Tidy) {a : ObjectId} {o : Object} {v : Value}
    (ho : r.object? a = some o) (hv : v ∈ o.values) : r.Copyable v where
  denotes := h.denotes ho hv
  noTemplate := by
    rintro x rfl
    exact h.noTemplate ho (Object.mem_held_iff.mpr ⟨_, hv, rfl⟩)

theorem Copyable.later {v : Value} (h : r.Copyable v) (hlast : r.Preserves r')
    (hsteady : r.Steady r') : r'.Copyable v where
  denotes := hlast.denotes h.denotes
  noTemplate := by
    rintro x rfl
    exact hsteady.noTemplate (h.denotes.index_lt rfl) (h.noTemplate x rfl)

/-- What the canonical templates hold can be copied. -/
def TemplatesCopyable (r : Repository ts) : Prop :=
  ∀ ⦃m d f v⦄, r.model? m = some (.datatype d) → r.object? d.template = some (.composite m f) →
    v ∈ f.values → r.Copyable v

theorem Tidy.templatesCopyable (h : r.Tidy) : r.TemplatesCopyable :=
  fun _ _ _ _ _ hT hv => h.copyable hT hv

/-- Additions change no template. -/
theorem TemplatesCopyable.grew (h : r.TemplatesCopyable) (hr : r.WellFormed) (hext : r.Extends r') :
    r'.TemplatesCopyable := by
  intro m d' f v hd' hT hv
  obtain ⟨d, g, hd, rfl⟩ := hext.datatype_of hd'
  rw [hext.object? (hr.template_lt hd)] at hT
  exact (h hd hT hv).later hext.preserves hext.steady

/-- A composite that can be copied is bound to a datatype that is no alias and no leaf. -/
theorem Copyable.plain {x : ObjectId} (h : r.Copyable (.composite x)) (hr : r.WellFormed) :
    ∃ m, r.IsPlain x m ∧ r.isLeaf m = false := by
  obtain ⟨m, f, ho⟩ := h.denotes
  obtain ⟨d, hd⟩ := hr.composite ho
  rcases hr.instance_kind ho hd with ht | ⟨htemplate, halias, hleaf⟩
  · exact (h.noTemplate x rfl m d hd ht.symm).elim
  · exact ⟨m, ⟨f, d, ho, hd, htemplate, halias⟩, by rw [isLeaf_datatype hd, hleaf]⟩

end Repository

namespace Step

open Repository (Loose Copyable)

/-! ## Additions that are in step with their templates -/

/-- `r'` is `r` with instances and collections added, and the instances follow their templates. -/
structure Copied (r r' : Repository ts) : Prop where
  grew : Grew r r'
  synced : r'.Synced fun id => r.objects.size ≤ id.index

/-- Where no composite is added there is none that has to follow. -/
theorem copied_of_oldComposites (h : Grew r r') (hold : OldComposites r r') : Copied r r' where
  grew := h
  synced := by
    intro id m d f fT hid _ ho _ _
    have := hold id m f ho
    omega

theorem copied_refl (h : r.WellFormed) : Copied r r :=
  copied_of_oldComposites (grew_refl h) fun _ _ _ ho => Repository.index_lt_of_object? ho

theorem Copied.trans (h : Copied r₀ r) (h' : Copied r r') : Copied r₀ r' where
  grew := h.grew.trans h'.grew
  synced := by
    refine ((h.synced.grew h.grew.1 h'.grew.2).or h'.synced).imp fun id hid => ?_
    rcases Nat.lt_or_ge id.index r.objects.size with hlt | hge
    · exact Or.inl ⟨hid, hlt⟩
    · exact Or.inr hge

/-- An instance with the fields of the template, copied under its path, is in step. -/
theorem Copied.withInstance (h : Copied r₀ r) {m : ModelId} {d : Datatype κ}
    {fT f : Table String Value} {path : String} (hd : r.model? m = some (.datatype d))
    (hT : r.object? d.template = some (.composite m fT)) (hf : fT.Fieldwise (r.Follows path) f)
    (hgrew : Grew r₀ (r.withInstance m f path)) : Copied r₀ (r.withInstance m f path) := by
  have hlast := Repository.preserves_withInstance (r := r) m f path
  have hobject := Repository.object?_withInstance (r := r) m f path
  refine ⟨hgrew, fun id n d' f' fT' hid hne ho hd' hT' => ?_⟩
  obtain ⟨e, g, he, rfl⟩ := Repository.model?_withInstance_datatype hd'
  rw [hobject, if_neg] at hT'
  · rw [hobject] at ho
    split at ho
    · next hnew =>
      -- The new instance itself.
      subst hnew
      obtain ⟨rfl, rfl⟩ := Object.composite.inj (Option.some.inj ho)
      obtain rfl : d = e := Repository.datatype_unique hd he
      obtain rfl : fT = fT' := (Repository.composite_unique hT hT').2
      rw [Repository.registeredName_withInstance hd]
      exact hf.imp fun v w _ _ hvw => hvw.preserves hlast
    · rw [(hlast id _ ho).registeredName]
      exact (h.synced (d := e) hid hne ho he hT').imp fun v w _ _ hvw => hvw.preserves hlast
  · intro ht
    have := h.grew.1.template_lt he
    rw [ht] at this
    exact Nat.lt_irrefl _ this

/-! ## Copies -/

/-- A step that copies a value under a path, or uses up its depth. -/
def CopiesValue (v : Value) (under : String) (x : Step ts Value) (r : Repository ts) : Prop :=
  x.Ensures r (fun w r' => Copied r r' ∧ Loose r r' w ∧ r'.Follows under v w) fun e _ => ¬ e.Proper

theorem cloneWith_copies (hr : r.WellFormed) {make : ObjectId → String → Step ts Value}
    {owned : Bool} {v : Value} {under : String} (hv : r.Copyable v)
    (hmake : ∀ x, v = .composite x → CopiesValue v under (make x under) r) :
    CopiesValue v under (cloneWith make owned v under) r := by
  cases v with
  | accessor leaf => exact ⟨copied_refl hr, .of_leaf rfl, .accessor leaf⟩
  | scalar s => exact ⟨copied_refl hr, .of_leaf rfl, .scalar s⟩
  | composite x => exact hmake x rfl
  | collection x =>
    obtain ⟨m, es, ho⟩ := hv.denotes
    obtain ⟨s, hshape⟩ := hr.shape_of_collection ho
    rw [CopiesValue, cloneWith, ensures_map]
    refine (copyCollection_ensures hr hshape under owned).imp ?_ fun _ _ h => h.elim
    rintro y r' ⟨hgrew, hloose, hold, t, ht, hname, helement, hcapacity⟩
    refine ⟨copied_of_oldComposites hgrew hold, hloose, ?_⟩
    exact .collection (hgrew.2.shape_ok hshape) ht hname helement hcapacity

/-- Fields are copied one after the other; none of the copies is held by an earlier one. -/
theorem cloneFieldsWith_copies (hr : r.WellFormed) {make : ObjectId → String → Step ts Value}
    {owned : Bool} {under : String} {fields : Table String Value}
    (hfields : ∀ v ∈ fields.values, r.Copyable v)
    (hmake : ∀ r₁ x, Copied r r₁ → r₁.Copyable (.composite x) →
      CopiesValue (.composite x) under (make x under) r₁) :
    (cloneFieldsWith make owned fields under).Ensures r
      (fun copies r' => Copied r r' ∧
        fields.Fieldwise (fun v w => Loose r r' w ∧ r'.Follows under v w) copies)
      fun e _ => ¬ e.Proper := by
  rw [cloneFieldsWith, ensures_bind]
  refine (ensures_mapEach (P := Copied r)
    (R := fun r₁ field copy => copy.1 = field.1 ∧ Loose r r₁ copy.2 ∧
      r₁.Follows under field.2 copy.2)
    fields.entries ?_ (copied_refl hr)).imp ?_ fun _ _ h => h
  · intro field hfield r₁ h₁
    simp only [ensures_bind, ensures_pure]
    have hv : r₁.Copyable field.2 :=
      (hfields field.2 (List.mem_map.mpr ⟨field, hfield, rfl⟩)).later h₁.grew.2.preserves
        h₁.grew.2.steady
    refine (cloneWith_copies h₁.grew.1 hv fun x hx => ?_).imp ?_ fun _ _ h => h
    · rw [hx] at hv ⊢
      exact hmake r₁ x h₁ hv
    · rintro copy r₂ ⟨h₂, hloose, hfollows⟩
      refine ⟨h₁.trans h₂, ?_, trivial, .since h₁.grew.2 hloose h₂.grew.2, hfollows⟩
      rintro a b ⟨hkey, hloose, hfollows⟩
      exact ⟨hkey, hloose.extend h₂.grew.2, hfollows.preserves h₂.grew.2.preserves⟩
  · rintro copies r' ⟨h', -, hcopies⟩
    exact ⟨h', hcopies⟩

/-- An instance of anything is made whole; it follows the template it is made from, if it is no
leaf. Otherwise nothing is done, unless the depth is used up on the way. -/
theorem instantiate_copies (hr : r.WellFormed) (ht : r.TemplatesCopyable) (owned : Bool)
    (depth : Nat) (id : ObjectId) (under : String) :
    (instantiate owned depth id under).Ensures r
      (fun w r' => Copied r r' ∧ Loose r r' w ∧
        ∀ t m, r.seed id = .ok (.plain t) → r.modelOf? t = some m → r.isLeaf m = false →
          r'.Follows under (.composite t) w)
      fun e r' => ¬ e.Proper ∨ r' = r ∧ ∀ t, r.seed id ≠ .ok (.plain t) := by
  induction depth generalizing r id under with
  | zero => exact Or.inl fun h => h id rfl
  | succ depth ih =>
    have hsame : ∀ {t m s n}, r.seed id = .ok (.plain t) → r.IsPlain t m →
        r.seed id = .ok (.plain s) → r.modelOf? s = some n → s = t ∧ n = m := by
      intro t m s n hseed hplain hs hn
      obtain rfl : t = s := by simpa [hseed] using hs
      exact ⟨rfl, Option.some.inj (hn.symm.trans hplain.modelOf?)⟩
    apply instantiate_ensures hr
    case hrefused => exact fun e he => Or.inr ⟨rfl, fun t h => by simp [h] at he⟩
    case hnested =>
      intro element q hseed
      refine Ensures.imp (newCollections_makes hr element q under owned) ?_ ?_
      · rintro y r' ⟨hgrew, hloose, hold⟩
        refine ⟨copied_of_oldComposites hgrew hold, hloose, fun t m h => ?_⟩
        simp [hseed] at h
      · rintro e r' rfl
        exact Or.inr ⟨rfl, fun t h => by simp [hseed] at h⟩
    case hleaf =>
      intro t m hseed hplain hleaf
      refine ⟨copied_refl hr, .of_leaf rfl, fun s n hs hn hn' => ?_⟩
      rw [(hsame hseed hplain hs hn).2, hleaf] at hn'
      simp at hn'
    case hcomposite =>
      intro t m d fT hseed hplain hd hkind hT
      refine (cloneFieldsWith_copies hr (fun v hv => ht hd hT hv) ?_).imp ?_
        fun _ _ h => Or.inl h
      · -- What the template holds is no template, and so is its own seed.
        intro r₁ x h₁ hx
        obtain ⟨n, hn, hnleaf⟩ := hx.plain h₁.grew.1
        refine (ih h₁.grew.1 (ht.grew hr h₁.grew.2) x _).imp ?_ ?_
        · rintro w r₂ ⟨h₂, hloose, hfollows⟩
          exact ⟨h₂, hloose, hfollows x n hn.seed hn.modelOf? hnleaf⟩
        · rintro e r₂ (hdepth | ⟨-, hseed'⟩)
          · exact hdepth
          · exact (hseed' x hn.seed).elim
      · rintro copies r₁ ⟨h₁, hcopies⟩
        obtain ⟨g, hg⟩ := h₁.grew.2.datatype hd
        obtain ⟨hgrew, hloose⟩ := h₁.grew.withCopies hr (Path.join under (r.registeredName t)) hd
          hkind hT hcopies fun _ _ hvw => hvw.1
        have hcopied : Copied r (r₁.withInstance m copies _) :=
          h₁.withInstance hg (h₁.grew.2.object?_some hT) (hcopies.imp fun v w _ _ h => h.2) hgrew
        refine ⟨hcopied, hloose, fun s n hs hn _ => ?_⟩
        obtain ⟨rfl, rfl⟩ := hsame hseed hplain hs hn
        obtain ⟨f₀, -, ho, -⟩ := hplain
        refine .composite (hcopied.grew.2.object?_some ho)
          (by rw [Repository.object?_withInstance, if_pos rfl]) ?_
        rw [Repository.registeredName_withInstance hg, hcopied.grew.2.registeredName ho]

/-! ## Where no datatype contains itself -/

/-- An instance of anything is made whole, or nothing is done. -/
theorem newInstance_copies (h : r.Orderly) (ht : r.TemplatesCopyable) (id : ObjectId)
    (under : String) (owned : Bool) :
    (newInstance id under owned).Ensures r
      (fun w r' => Copied r r' ∧ Loose r r' w ∧
        ∀ t m, r.seed id = .ok (.plain t) → r.modelOf? t = some m → r.isLeaf m = false →
          r'.Follows under (.composite t) w)
      fun _ r' => r' = r ∧ ∀ t, r.seed id ≠ .ok (.plain t) := by
  have hcopies := instantiate_copies h.bounded.wellFormed ht owned (r.models.size + 1) id under
  refine ((newInstance_ensures_iff.mpr hcopies).and (settles_newInstance h id under owned)).imp
    (fun _ _ h' => h'.1) ?_
  rintro e r' ⟨hdepth | hnone, hproper⟩
  · exact (hdepth hproper).elim
  · exact hnone

/-- A value that can be copied is copied. -/
theorem cloneValue_copies (h : r.Orderly) (ht : r.Tidy) {v : Value} (hv : r.Copyable v)
    (under : String) (owned : Bool) :
    (cloneValue v under owned).Ensures r
      (fun w r' => Copied r r' ∧ Loose r r' w ∧ r'.Follows under v w) fun _ _ => False := by
  have hr := h.bounded.wellFormed
  have hcopies : CopiesValue v under (cloneValue v under owned) r := by
    refine cloneWith_copies hr hv ?_
    rintro x rfl
    obtain ⟨m, hplain, hleaf⟩ := hv.plain hr
    -- Only what has no seed is refused, and a value that can be copied has one.
    refine (newInstance_copies h ht.templatesCopyable x under owned).imp ?_ ?_
    · rintro w r' ⟨hcopied, hloose, hfollows⟩
      exact ⟨hcopied, hloose, hfollows x m hplain.seed hplain.modelOf? hleaf⟩
    · rintro e r' ⟨-, hnone⟩
      exact (hnone x hplain.seed).elim
  refine (Ensures.and hcopies (settles_cloneValue h v under owned)).imp (fun _ _ h' => h'.1) ?_
  rintro e r' ⟨hdepth, hproper⟩
  exact hdepth hproper

/-- A step that makes a value which nothing holds and which is in step, or does nothing. -/
def MakesWhole (x : Step ts Value) (r : Repository ts) : Prop :=
  x.Ensures r (fun w r' => Copied r r' ∧ Loose r r' w) fun _ r' => r' = r

theorem MakesCollection.makesWhole {x : Step ts ObjectId} (h : MakesCollection x r) :
    MakesWhole (Value.collection <$> x) r := by
  rw [MakesWhole, ensures_map]
  refine Ensures.imp h ?_ fun _ _ h' => h'
  rintro id r' ⟨hgrew, hloose, hold⟩
  exact ⟨copied_of_oldComposites hgrew hold, hloose⟩

theorem newInstance_whole (h : r.Orderly) (ht : r.Tidy) (id : ObjectId) (under : String)
    (owned : Bool) : MakesWhole (newInstance id under owned) r :=
  (newInstance_copies h ht.templatesCopyable id under owned).imp (fun _ _ h' => ⟨h'.1, h'.2.1⟩)
    fun _ _ h' => h'.1

theorem cloneValue_whole (h : r.Orderly) (ht : r.Tidy) (value : Value) (under : String)
    (owned : Bool) : MakesWhole (cloneValue value under owned) r := by
  have hr := h.bounded.wellFormed
  cases value with
  | accessor leaf => exact ⟨copied_refl hr, .of_leaf rfl⟩
  | scalar s => exact ⟨copied_refl hr, .of_leaf rfl⟩
  | composite id => exact newInstance_whole h ht id under owned
  | collection id => exact (copyCollection_makes hr id under owned).makesWhole

theorem createRoleInstance_whole (h : r.Orderly) (ht : r.Tidy) (datatype : ObjectId)
    (role : String) (qualifiers : List Qualifier) :
    MakesWhole (createRoleInstance datatype role qualifiers) r := by
  simp only [MakesWhole, createRoleInstance, ensures_bind, ensures_query, ensures_ask]
  refine ⟨fun datatype _ => ?_, fun _ _ => trivial⟩
  split
  · exact (newCollections_makes h.bounded.wellFormed datatype _ role true).makesWhole
  · exact newInstance_whole h ht datatype role true

end Step

end Metamodel
