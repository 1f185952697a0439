import Metamodel.Proofs.Declaring
import Metamodel.Proofs.Retaining

/-!
# Metamodel.Proofs.Upholding -- changes after which a member is still what it was

What the value of a member is depends on its datatype, on the aliases on the way to it, and on the
constants among its dimensions. Members and bases may be edited everywhere and new datatypes may be
declared without a difference to any of these, unless an annotation with dimensions is new. Main
statement: if an operation upholds them, then every look-up that succeeds before gives the same
answer afterwards, and with it each form of a member.
-/

namespace Metamodel

namespace Entry

variable {member : Member} {role : String} {entries : List Entry}

/-! ## What a declaration list says of an alias -/

/-- The target of an alias and all qualifiers after it. -/
def aliased? (entries : List Entry) : Option (ObjectId × List Qualifier) :=
  (splitTarget? entries).map fun split => (split.1, split.2.filterMap qualifier?)

theorem filterMap_qualifier?_define :
    (define member entries).filterMap qualifier? = entries.filterMap qualifier? := by
  induction entries with
  | nil => rfl
  | cons e rest ih =>
    rw [define]
    split
    · next he =>
      obtain ⟨other, rfl, -⟩ := declares_eq_true_iff.mp he
      rfl
    · rw [List.filterMap_cons, List.filterMap_cons, ih]

theorem filterMap_qualifier?_remove :
    (remove role entries).filterMap qualifier? = entries.filterMap qualifier? := by
  rw [remove, List.filterMap_filter]
  refine List.filterMap_congr fun e _ => ?_
  split
  · rfl
  · next he =>
    obtain ⟨other, rfl, -⟩ := declares_eq_true_iff.mp (by simpa using he)
    rfl

/-- A member is neither the target nor a qualifier, so that edits of members leave the two alone. -/
theorem aliased?_define : aliased? (define member entries) = aliased? entries := by
  induction entries with
  | nil => rfl
  | cons e rest ih =>
    rw [define]
    split
    · next he =>
      obtain ⟨other, rfl, -⟩ := declares_eq_true_iff.mp he
      rfl
    · cases e with
      | type target =>
        simp only [aliased?, splitTarget?, Option.map_some, filterMap_qualifier?_define]
      | qualifier _ => exact ih
      | member _ => exact ih
      | value _ _ => exact ih

theorem aliased?_remove : aliased? (remove role entries) = aliased? entries := by
  induction entries with
  | nil => rfl
  | cons e rest ih =>
    cases e with
    | type target =>
      show aliased? (.type target :: remove role rest) = _
      simp only [aliased?, splitTarget?, Option.map_some, filterMap_qualifier?_remove]
    | qualifier _ => exact ih
    | value _ _ => exact ih
    | member other =>
      rw [remove, List.filter_cons]
      split
      · exact ih
      · exact ih

end Entry

namespace Idl

open Repository (nestedForm instanceForm memberForm)

variable {limits : Limits} {r r' r'' : Repository (system limits)}

/-- Everything lasts, datatypes keep their kind and their template, aliases their target and
qualifiers, and constants their value; and no annotation with dimensions is new. -/
structure Upholds (r r' : Repository (system limits)) : Prop extends r.Retains r' where
  wellFormed : r'.WellFormed
  aliased : ∀ {m}, r.isAlias m = true →
    Entry.aliased? (r'.entriesOf m) = Entry.aliased? (r.entriesOf m)
  dimensions : ∀ {m d'}, r'.model? m = some (.datatype d') →
    (system limits).isCollection d'.kind = true → ∃ d, r.model? m = some (.datatype d)

namespace Upholds

theorem refl (hr : r.WellFormed) : Upholds r r where
  wellFormed := hr
  preserves := .refl r
  datatype hd := ⟨_, hd, rfl, rfl⟩
  aliased _ := rfl
  value _ := rfl
  dimensions hd _ := ⟨_, hd⟩

variable (h : Upholds r r')

include h

theorem trans (h' : Upholds r' r'') : Upholds r r'' where
  wellFormed := h'.wellFormed
  preserves := h.preserves.trans h'.preserves
  datatype hd := by
    obtain ⟨d', hd', hk, ht⟩ := h.datatype hd
    obtain ⟨d'', hd'', hk', ht'⟩ := h'.datatype hd'
    exact ⟨d'', hd'', hk'.trans hk, ht'.trans ht⟩
  aliased {m} ha := by
    obtain ⟨k, hk, -⟩ := (Option.any_eq_true _ _).mp ha
    obtain ⟨d, hd, -⟩ := Repository.kindOf?_eq_some_iff.mp hk
    rw [h'.aliased ((h.isAlias hd).trans ha), h.aliased ha]
  value hd := by
    obtain ⟨d', hd', -⟩ := h.datatype hd
    rw [h'.value hd', h.value hd]
  dimensions hd'' hq := by
    obtain ⟨d', hd'⟩ := h'.dimensions hd'' hq
    obtain ⟨e, he, hk, -⟩ := h'.datatype hd'
    obtain rfl := Repository.datatype_unique hd'' he
    exact h.dimensions hd' (hk ▸ hq)

/-! ## Chains of aliases -/

variable (hr : r.WellFormed)

include hr

/-- Annotations have no instances, so that they are templates of old datatypes. -/
theorem kind?_of_isCollection {id : ObjectId} {k : Kind} (hk : r'.kind? id = some k)
    (hq : (system limits).isCollection k = true) : r.kind? id = some k := by
  obtain ⟨m, hm, hk⟩ := Option.bind_eq_some_iff.mp hk
  obtain ⟨d', hd', rfl⟩ := Repository.kindOf?_eq_some_iff.mp hk
  obtain ⟨f', ho'⟩ := h.wellFormed.composite_of_modelOf? hd' hm
  have hid : id = d'.template := by
    refine (h.wellFormed.instance_kind ho' hd').resolve_right fun htemplate => ?_
    cases hkind' : d'.kind <;> simp [system, hkind'] at hq htemplate
  obtain ⟨d, hd⟩ := h.dimensions hd' hq
  obtain ⟨e, he, hek, het⟩ := h.datatype hd
  obtain rfl := Repository.datatype_unique hd' he
  obtain ⟨f, hf⟩ := hr.template hd
  have hold : r.modelOf? id = some m := by
    rw [hid, het]
    exact Repository.modelOf?_of_object? hf
  rw [Repository.kind?, hold, Option.bind_some]
  exact Repository.kindOf?_eq_some_iff.mpr ⟨d, hd, hek.symm⟩

theorem isCollectionQualifier : r'.isCollectionQualifier = r.isCollectionQualifier := by
  funext q
  rw [Bool.eq_iff_iff, Repository.isCollectionQualifier, Repository.isCollectionQualifier,
    Option.any_eq_true, Option.any_eq_true]
  constructor
  · rintro ⟨k, hk, hq⟩
    exact ⟨k, h.kind?_of_isCollection hr hk (Bool.and_eq_true_iff.mp hq).2, hq⟩
  · rintro ⟨k, hk, hq⟩
    exact ⟨k, h.kind? hk, hq⟩

theorem aliasDefinition {m : ModelId} (ha : r.isAlias m = true)
    {definition : ObjectId × List Qualifier} (hdef : r.aliasDefinition m = .ok definition) :
    r'.aliasDefinition m = .ok definition := by
  have halias := h.aliased ha
  unfold Repository.aliasDefinition at hdef ⊢
  rw [h.isCollectionQualifier hr]
  cases hsplit : Entry.splitTarget? (r.entriesOf m) with
  | none => simp [hsplit] at hdef
  | some split =>
    obtain ⟨split', hsplit', heq⟩ : ∃ split', Entry.splitTarget? (r'.entriesOf m) = some split' ∧
        (split'.1, split'.2.filterMap Entry.qualifier?) =
          (split.1, split.2.filterMap Entry.qualifier?) := by
      rwa [Entry.aliased?, Entry.aliased?, hsplit, Option.map_some, Option.map_eq_some_iff]
        at halias
    obtain ⟨htarget, hqualifiers⟩ := Prod.mk.inj heq
    simpa only [hsplit, hsplit', htarget, hqualifiers] using hdef

theorem retainsAliases : r.RetainsAliases r' where
  toRetains := h.toRetains
  aliasDefinition ha := h.aliasDefinition hr ha

/-! ## Members -/

/-- The value of a member has the form that it had. -/
theorem memberForm {datatype : ObjectId} {role : String} {qualifiers : List Qualifier}
    {form : Form} (hform : r.memberForm datatype role qualifiers = .ok form) :
    r'.memberForm datatype role qualifiers = .ok form := by
  obtain ⟨x, hx, hform⟩ := bind_eq_ok_iff.mp hform
  refine bind_eq_ok_iff.mpr ⟨x, h.assertTemplateKind hx, ?_⟩
  rw [h.isCollectionQualifier hr]
  cases hfind : qualifiers.find? r.isCollectionQualifier with
  | some q =>
    rw [hfind] at hform
    exact h.nestedForm hform
  | none =>
    rw [hfind] at hform
    exact (h.retainsAliases hr).instanceForm hform

/-- A member that had a value has one. -/
theorem hasValue {datatype : ObjectId} {qualifiers : List Qualifier}
    (hvalue : r.HasValue datatype qualifiers) : r'.HasValue datatype qualifiers := by
  obtain ⟨form, hform⟩ := (Repository.hasValue_iff_memberForm "").mp hvalue
  exact (Repository.hasValue_iff_memberForm "").mpr ⟨form, h.memberForm hr hform⟩

end Upholds

/-! ## What upholds the forms of members -/

variable {F D : ModelId → Prop}

/-- Declarations may change, but for the target of an alias and the value of a constant. -/
theorem upholds_of_sameBut (h : r.SameBut F D r') (hr' : r'.WellFormed)
    (hold : ∀ {m d}, D m → r.model? m = some (.datatype d) →
      ((system limits).isAlias d.kind = true →
        Entry.aliased? (r'.entriesOf m) = Entry.aliased? (r.entriesOf m)) ∧
      (r'.entriesOf m).findSome? Entry.scalar? = (r.entriesOf m).findSome? Entry.scalar?)
    (hnew : ∀ {m d'}, D m → r'.model? m = some (.datatype d') →
      (system limits).isCollection d'.kind = true → m.index < r.models.size) : Upholds r r' where
  wellFormed := hr'
  preserves := h.preserves
  datatype hd := by
    obtain ⟨d', hd', hk, ht, -⟩ := h.datatype hd
    exact ⟨d', hd', hk, ht⟩
  aliased {m} ha := by
    obtain ⟨k, hk, ha⟩ := (Option.any_eq_true _ _).mp ha
    obtain ⟨d, hd, rfl⟩ := Repository.kindOf?_eq_some_iff.mp hk
    by_cases hD : D m
    · exact (hold hD hd).1 ha
    · rw [h.entriesOf hd hD]
  value {m d} hd := by
    by_cases hD : D m
    · exact (hold hD hd).2
    · rw [h.entriesOf hd hD]
  dimensions {m d'} hd' hq := by
    have hlt : m.index < r.models.size := (h.datatype_old hd').elim id fun hD => hnew hD hd' hq
    obtain ⟨model, hmodel⟩ : ∃ model, r.model? m = some model := by simp [Repository.model?, hlt]
    cases model with
    | shape s => simp [h.shape hmodel] at hd'
    | datatype d => exact ⟨d, hmodel⟩

theorem upholds_of_grew (h : Step.Grew r r') : Upholds r r' :=
  upholds_of_sameBut (F := fun _ => False) (D := fun _ => False) h.2.sameBut h.1 (fun hD => hD.elim)
    fun hD => hD.elim

theorem Begun.upholds {name : String} {kind : Kind} (h : Begun r name kind r')
    (hkind : (system limits).isCollection kind = false) : Upholds r r' := by
  refine upholds_of_sameBut h.sameBut h.wellFormed ?_ ?_
  · rintro m d rfl hd
    exact (Repository.ne_nextModel hd rfl).elim
  · rintro m d' rfl hd' hq
    rw [h.kind_eq hd', hkind] at hq
    simp at hq

/-- Members may be edited in any datatype. -/
theorem upholds_of_edited_members {m : ModelId} {d : Datatype Kind}
    (hd : r.model? m = some (.datatype d)) (h : r.Edited (· = m) (· = m) r')
    (halias : Entry.aliased? (r'.entriesOf m) = Entry.aliased? (r.entriesOf m))
    (hvalue : (r'.entriesOf m).findSome? Entry.scalar? =
      (r.entriesOf m).findSome? Entry.scalar?) : Upholds r r' := by
  refine upholds_of_sameBut h.sameBut h.wellFormed ?_ ?_
  · rintro n e rfl -
    exact ⟨fun _ => halias, hvalue⟩
  · rintro n e rfl - -
    exact Repository.index_lt_of_model? hd

/-- A structure or a union may be edited. -/
theorem upholds_of_edited {m : ModelId} (h : r.Edited (· = m) (· = m) r')
    (hkind : r.kindOf? m = some .struct ∨ r.kindOf? m = some .union)
    (hvalue : (r'.entriesOf m).findSome? Entry.scalar? =
      (r.entriesOf m).findSome? Entry.scalar?) : Upholds r r' := by
  obtain ⟨k, hk, hedits⟩ : ∃ k, r.kindOf? m = some k ∧ (k = .struct ∨ k = .union) := by
    rcases hkind with hk | hk
    · exact ⟨_, hk, Or.inl rfl⟩
    · exact ⟨_, hk, Or.inr rfl⟩
  obtain ⟨d, hd, rfl⟩ := Repository.kindOf?_eq_some_iff.mp hk
  refine upholds_of_sameBut h.sameBut h.wellFormed ?_ ?_
  · rintro n e rfl he
    obtain rfl := Repository.datatype_unique hd he
    refine ⟨fun ha => ?_, hvalue⟩
    rcases hedits with hk | hk <;> simp [hk, system] at ha
  · rintro n e rfl - -
    exact Repository.index_lt_of_model? hd

/-- A declaration may be changed where it is none of an alias and has no value. -/
theorem upholds_mapDatatype {m : ModelId} {f : Datatype Kind → Datatype Kind}
    (hr' : (r.mapDatatype m f).WellFormed)
    (hf : ∀ d, (f d).kind = d.kind ∧ (f d).template = d.template ∧ (f d).registry = d.registry)
    (hentries : ∀ d, r.model? m = some (.datatype d) →
      ((system limits).isAlias d.kind = true →
        Entry.aliased? (f d).entries = Entry.aliased? d.entries) ∧
      (f d).entries.findSome? Entry.scalar? = d.entries.findSome? Entry.scalar?) :
    Upholds r (r.mapDatatype m f) := by
  refine upholds_of_sameBut (Repository.sameBut_mapDatatype (F := fun _ => False) (D := (· = m)) rfl
    hf) hr' ?_ ?_
  · rintro n d rfl hd
    have hd' : (r.mapDatatype n f).model? n = some (.datatype (f d)) :=
      Repository.model?_mapDatatype_datatype.mpr ⟨d, hd, (if_pos rfl).symm⟩
    rw [Repository.entriesOf_datatype hd, Repository.entriesOf_datatype hd']
    exact hentries d hd
  · rintro n d' rfl hd' -
    obtain ⟨d, hd, -⟩ := Repository.model?_mapDatatype_datatype.mp hd'
    exact Repository.index_lt_of_model? hd

theorem upholds_writeElement (hr : r.WellFormed) (id : ObjectId) (index : Nat) (value : Value) :
    Upholds r (r.writeElement id index value) where
  wellFormed := hr.writeElement id index value
  preserves := Repository.preserves_writeElement id index value
  datatype hd := ⟨_, by simpa using hd, rfl, rfl⟩
  aliased _ := by simp [Repository.entriesOf]
  value _ := by simp [Repository.entriesOf]
  dimensions hd _ := ⟨_, by simpa using hd⟩

end Idl

end Metamodel
