import Metamodel.Proofs.Forms
import Metamodel.Proofs.Inheritance
import Metamodel.Proofs.Lengths
import Metamodel.Proofs.Segments

/-!
# Metamodel.Proofs.Rooting -- values are named for where they are

A value that is made for a member has a path that goes on from the role, whatever path its datatype
adds to it, and the value of an element has one that goes on from the path of the element. Copies
carry this over to instances, under their own paths. Main statements: in every state reached, each
field of a composite goes on from the path of the composite and the role, apart from the mark of a
union, and each element from the name of its collection and the index.
-/

namespace Metamodel

variable {κ : Type} {ts : TypeSystem κ} {r r' : Repository ts}

/-- The path that a value of the form has itself. -/
def Form.path : Form → String
  | leaf path => path
  | composite _ path => path
  | nested _ _ name => name

namespace Repository

/-! ## Values with a path of their own -/

/-- The value is plain data, or its own path goes on from this one with some name, perhaps an empty
one. -/
inductive Rooted (r : Repository ts) (path : String) : Value → Prop where
  | scalar (scalar : Scalar) : Rooted r path (.scalar scalar)
  | accessor (name : String) : Rooted r path (.accessor (Path.join path name))
  | composite {x : ObjectId} {m : ModelId} {f : Table String Value} (name : String)
      (ho : r.object? x = some (.composite m f))
      (hname : r.registeredName x = Path.join path name) : Rooted r path (.composite x)
  | collection {c : ObjectId} {s : Shape} (name : String) (hs : r.shape c = .ok s)
      (hname : s.name = Path.join path name) : Rooted r path (.collection c)

theorem Rooted.preserves {path : String} {v : Value} (h : r.Rooted path v)
    (hr' : r.Preserves r') : r'.Rooted path v := by
  cases h with
  | scalar scalar => exact .scalar scalar
  | accessor name => exact .accessor name
  | composite name ho hname =>
    obtain ⟨f', ho'⟩ := (hr' _ _ ho).composite ho
    exact .composite name ho' ((hr' _ _ ho).registeredName.trans hname)
  | collection name hs hname =>
    obtain ⟨m, es, ho, -⟩ := shape_eq_ok_iff.mp hs
    exact .collection name ((hr' _ _ ho).shape hs) hname

theorem HasForm.rooted {form : Form} {v : Value} (h : r.HasForm form v) {path name : String}
    (hpath : form.path = Path.join path name) : r.Rooted path v := by
  cases h with
  | leaf =>
    obtain rfl : _ = Path.join path name := hpath
    exact .accessor name
  | composite ho hname => exact .composite name ho (hname.trans hpath)
  | @nested element capacities _ c hne hnests =>
    cases capacities with
    | nil => exact (hne rfl).elim
    | cons capacity inner =>
      obtain ⟨s, hs, rfl, -⟩ := hnests
      exact .collection name hs hpath

theorem instanceForm_path {template : ObjectId} {under : String} {form : Form}
    (h : r.instanceForm template under = .ok form) :
    ∃ name, form.path = Path.join under name := by
  obtain ⟨seed, -, h⟩ := bind_eq_ok_iff.mp h
  cases seed with
  | nested element q =>
    obtain ⟨-, capacities, -, rfl⟩ := nestedForm_ok_iff.mp h
    exact ⟨"", (Path.join_empty_right under).symm⟩
  | plain t =>
    obtain ⟨m, -, h⟩ := bind_eq_ok_iff.mp h
    obtain rfl := Except.ok.inj h
    refine ⟨r.registeredName t, ?_⟩
    split <;> rfl

theorem memberForm_path {datatype : ObjectId} {role : String} {qualifiers : List Qualifier}
    {form : Form} (h : r.memberForm datatype role qualifiers = .ok form) :
    ∃ name, form.path = Path.join role name := by
  obtain ⟨x, -, h⟩ := bind_eq_ok_iff.mp h
  split at h
  · obtain ⟨-, capacities, -, rfl⟩ := nestedForm_ok_iff.mp h
    exact ⟨"", (Path.join_empty_right role).symm⟩
  · exact instanceForm_path h

end Repository

namespace Step

theorem createRoleInstance_rooted (h : r.WellFormed) (datatype : ObjectId) (role : String)
    (qualifiers : List Qualifier) :
    (createRoleInstance datatype role qualifiers).Ensures r (fun v r' => r'.Rooted role v)
      fun _ _ => True := by
  refine (createRoleInstance_hasForm h datatype role qualifiers).imp ?_ fun _ _ h => h
  rintro v r' ⟨form, hform, hv⟩
  obtain ⟨name, hpath⟩ := Repository.memberForm_path hform
  exact hv.rooted hpath

/-- What an element is made from is an object. -/
theorem cloneValue_rooted (h : r.WellFormed) {content : Value} {x : ObjectId}
    (hcontent : content.object? = some x) (under : String) (owned : Bool) :
    (cloneValue content under owned).Ensures r (fun v r' => r'.Rooted under v)
      fun _ _ => True := by
  cases content with
  | accessor path => simp [Value.object?] at hcontent
  | scalar scalar => simp [Value.object?] at hcontent
  | composite id =>
    refine (newInstance_hasForm h id under owned).imp ?_ fun _ _ h => h
    rintro v r' ⟨form, hform, hv⟩
    obtain ⟨name, hpath⟩ := Repository.instanceForm_path hform
    exact hv.rooted hpath
  | collection id =>
    simp only [cloneValue, cloneWith, ensures_map]
    cases hs : r.shape id with
    | error e =>
      simp only [copyCollection, ensures_bind, ensures_query, hs]
      exact ⟨fun s h => by simp at h, fun _ _ => trivial⟩
    | ok s =>
      refine (copyCollection_ensures h hs under owned).imp ?_ fun _ _ h => h.elim
      rintro y r' ⟨-, -, -, t, ht, hname, -⟩
      exact .collection s.name ht hname

end Step

namespace Repository

/-! ## Elements -/

/-- Each element that has been made goes on from the name of its collection and from its index. -/
structure Numbered (r : Repository ts) : Prop where
  wellFormed : r.WellFormed
  rooted : ∀ {c m es s i v}, r.object? c = some (.collection m es) → r.shape c = .ok s →
    es.get? i = some v → r.Rooted (Path.element s.name i) v

namespace Numbered

/-- What was an element stays one, as far as each element was one before or is named for where it
is. -/
theorem step (h : r.Numbered) (hr' : r'.WellFormed) (hpreserves : r.Preserves r')
    (helements : ∀ {c m es' i v}, r'.object? c = some (.collection m es') → es'.get? i = some v →
      (∀ s, r'.shape c = .ok s → r'.Rooted (Path.element s.name i) v) ∨
        ∃ es, r.object? c = some (.collection m es) ∧ es.get? i = some v) : r'.Numbered where
  wellFormed := hr'
  rooted {c m es' s i v} ho' hs' hv := by
    rcases helements ho' hv with hrooted | ⟨es, ho, hv⟩
    · exact hrooted s hs'
    · obtain ⟨t, ht⟩ := h.wellFormed.shape_of_collection ho
      obtain rfl := Except.ok.inj (hs'.symm.trans ((hpreserves c _ ho).shape ht))
      exact (h.rooted ho ht hv).preserves hpreserves

/-- What is made has no elements yet. -/
theorem grew (h : r.Numbered) (hr' : Step.Grew r r') : r'.Numbered := by
  refine h.step hr'.1 hr'.2.preserves fun {c m es' i v} ho' hv => ?_
  rcases hr'.2.old_or_new ho' with ho | hnew
  · exact Or.inr ⟨es', ho, hv⟩
  · rw [hr'.2.empty_new ho' hnew] at hv
    simp at hv

theorem mapDatatype (h : r.Numbered) {k : ModelId} {f : Datatype κ → Datatype κ}
    (hr' : (r.mapDatatype k f).WellFormed) (hf : ∀ d, (f d).registry = d.registry) :
    (r.mapDatatype k f).Numbered :=
  h.step hr' (preserves_mapDatatype hf) fun ho' hv => Or.inr ⟨_, ho', hv⟩

theorem mapEntries (h : r.Numbered) (m : ModelId) (f : List Entry → List Entry) :
    (r.mapEntries m f).Numbered :=
  h.mapDatatype (h.wellFormed.mapEntries m f) fun _ => rfl

theorem addTemplate (h : r.Numbered) (name : String) (kind : κ) :
    (r.addTemplate name kind).Numbered := by
  refine h.step (h.wellFormed.addTemplate name kind) (preserves_addTemplate h.wellFormed name kind)
    fun {c m es' i v} ho' hv => Or.inr ⟨es', ?_, hv⟩
  rw [object?_addTemplate] at ho'
  split at ho'
  · simp at ho'
  · exact ho'

theorem writeField (h : r.Numbered) (id : ObjectId) (role : String) (value : Option Value) :
    (r.writeField id role value).Numbered :=
  h.step (h.wellFormed.writeField id role value) (preserves_writeField id role value)
    fun ho' hv => Or.inr ⟨_, collection_writeField.mp ho', hv⟩

theorem writeElement (h : r.Numbered) {id : ObjectId} {s : Shape} (hs : r.shape id = .ok s)
    (index : Nat) {value : Value} (hvalue : r.Rooted (Path.element s.name index) value) :
    (r.writeElement id index value).Numbered := by
  have hpreserves := r.preserves_writeElement id index value
  refine h.step (h.wellFormed.writeElement id index value) hpreserves fun {c m es' i v} ho' hv => ?_
  obtain ⟨es, ho, rfl⟩ := collection_writeElement.mp ho'
  split at hv
  · next hc =>
    subst hc
    rw [Table.get?_insert] at hv
    split at hv
    · next hi =>
      obtain rfl := Option.some.inj hv
      refine Or.inl fun t ht => ?_
      obtain rfl := Except.ok.inj (ht.symm.trans ((hpreserves c _ ho).shape hs))
      exact hi ▸ hvalue.preserves hpreserves
    · exact Or.inr ⟨es, ho, hv⟩
  · exact Or.inr ⟨es, ho, hv⟩

end Numbered

theorem numbered_declarative : Declarative (Numbered : Repository ts → Prop) where
  wellFormed := Numbered.wellFormed
  addTemplate name kind h := h.addTemplate name kind
  mapEntries m f _ h := h.mapEntries m f
  putQualifiers m qs h := h.mapDatatype (h.wellFormed.putQualifiers m qs) fun _ => rfl
  putScope m _ h hscope := h.mapDatatype (h.wellFormed.putScope m hscope) fun _ => rfl

theorem numbered_growing : Growing (Numbered : Repository ts → Prop) where
  wellFormed := Numbered.wellFormed
  grew := Numbered.grew

theorem installs_numbered (m : ModelId) (role : String) :
    Step.Installs (fun r : Repository ts => r.Numbered ∧ ∃ d, r.model? m = some (.datatype d))
      m role where
  wellFormed h := h.1.wellFormed
  datatype h := h.2
  made {r r'} h hmade := by
    obtain ⟨h, d, hd⟩ := h
    obtain ⟨g, hg⟩ := hmade.grew.2.datatype hd
    exact ⟨h.grew hmade.grew, _, hg⟩
  write {r r' x f v} h hmade _ _ := by
    obtain ⟨h, d, hd⟩ := h
    obtain ⟨g, hg⟩ := hmade.grew.2.datatype hd
    exact ⟨(h.grew hmade.grew).writeField x role (some v), _, by simpa using hg⟩
  erase {r x f} h _ := by
    obtain ⟨h, d, hd⟩ := h
    exact ⟨h.writeField x role none, d, by simpa using hd⟩

end Repository

open Repository in
theorem Step.numbered_element (id : ObjectId) (index : Nat) :
    Keeps (Numbered : Repository ts → Prop) (element id index) := by
  refine ⟨fun r h => element_ensures (fun _ => h) (fun _ _ => h) fun s content hs hcontent => ?_⟩
  refine ((cloneValue_makes h.wellFormed content _ _).and
    (cloneValue_rooted h.wellFormed (denotes_of_valueOf hcontent).2 _ _)).imp ?_
      fun _ _ h' => h.grew h'.1
  rintro v r' ⟨⟨hgrew, -⟩, hv⟩
  exact (h.grew hgrew).writeElement (hgrew.2.shape_ok hs) index hv

namespace Idl

open Repository (consistent_declarative)
open Step (Keeps ensures_true)

variable {limits : Limits} {r r' : Repository (system limits)} {path role : String} {v w : Value}

/-! ## Fields -/

/-- What a composite holds under a role: the mark of a union, or plain data, or a value that goes on
from the path of the composite and the role. -/
inductive Seated (r : Repository (system limits)) (path role : String) : Value → Prop where
  | scalar (scalar : Scalar) : Seated r path role (.scalar scalar)
  | marker (hrole : role = discriminatorRole) :
      Seated r path role (.accessor (Path.leaf path discriminatorMarker))
  | rooted {v : Value} (hrole : Role.isValid role = true) (hv : r.Rooted (Path.join path role) v) :
      Seated r path role v

namespace Seated

theorem preserves (h : Seated r path role v) (hr' : r.Preserves r') : Seated r' path role v := by
  cases h with
  | scalar scalar => exact .scalar scalar
  | marker hrole => exact .marker hrole
  | rooted hrole hv => exact .rooted hrole (hv.preserves hr')

theorem of_leaf (h : Leaf role v) : Seated r "" role v := by
  cases h with
  | discriminator => exact .marker rfl
  | enumerator name scalar => exact .scalar scalar

/-- A copy of what a template holds is under the path of the instance what that is in the template.
-/
theorem follow (h : Seated r "" role v) (hw : r.Follows path v w) : Seated r path role w := by
  cases h with
  | scalar scalar =>
    cases hw
    exact .scalar scalar
  | marker hrole =>
    cases hw
    rw [Path.leaf_empty]
    exact .marker hrole
  | rooted hrole hv =>
    refine .rooted hrole ?_
    cases hv with
    | scalar scalar =>
      cases hw
      exact .scalar scalar
    | accessor name =>
      cases hw
      rw [Path.join_empty_left, Path.leaf_join hrole, Path.join_assoc]
      exact .accessor name
    | composite name ho hname =>
      cases hw with
      | composite hx hy hpath =>
        rw [hname, Path.join_empty_left, Path.join_assoc] at hpath
        exact .composite name hy hpath
    | collection name hs hname =>
      cases hw with
      | collection hx hy hpath =>
        obtain rfl := Except.ok.inj (hx.symm.trans hs)
        rw [hname, Path.join_empty_left, Path.join_assoc] at hpath
        exact .collection name hy hpath

end Seated

/-- What each template holds is named for the role. -/
structure Labelled (r : Repository (system limits)) : Prop where
  wellFormed : r.WellFormed
  seated : ∀ {m d role v}, r.model? m = some (.datatype d) → r.templateField? m role = some v →
    Seated r "" role v

namespace Labelled

/-- Fields that were there may stay, and others are to be named for their roles. -/
theorem step (h : Labelled r) (hr' : r'.WellFormed) (hpreserves : r.Preserves r')
    (hfields : ∀ {m d' role v}, r'.model? m = some (.datatype d') →
      r'.templateField? m role = some v → Seated r' "" role v ∨
        ∃ d, r.model? m = some (.datatype d) ∧ r.templateField? m role = some v) : Labelled r' where
  wellFormed := hr'
  seated hd' hv := by
    rcases hfields hd' hv with hv | ⟨d, hd, hv⟩
    · exact hv
    · exact (h.seated hd hv).preserves hpreserves

/-- One datatype may be edited, and has to name its fields for their roles. -/
theorem edited (h : Labelled r) {m : ModelId} {d : Datatype Kind}
    (hd : r.model? m = some (.datatype d)) (hr' : r.Edited (· = m) (· = m) r')
    (hfields : ∀ {role v}, r'.templateField? m role = some v →
      Seated r' "" role v ∨ r.templateField? m role = some v) : Labelled r' := by
  refine h.step hr'.wellFormed hr'.sameBut.preserves fun {n e' role v} he' hv => ?_
  obtain ⟨e, he⟩ : ∃ e, r.model? n = some (.datatype e) := by
    rcases hr'.sameBut.datatype_old he' with hlt | rfl
    · obtain ⟨model, hmodel⟩ : ∃ model, r.model? n = some model := by
        simp [Repository.model?, hlt]
      cases model with
      | datatype e => exact ⟨e, hmodel⟩
      | shape s => simp [hr'.sameBut.shape hmodel] at he'
    · exact ⟨d, hd⟩
  by_cases hn : n = m
  · subst hn
    exact (hfields hv).imp_right fun hv => ⟨e, he, hv⟩
  · rw [hr'.sameBut.templateField? h.wellFormed he hn] at hv
    exact Or.inr ⟨e, he, hv⟩

/-- A field may be written that is named for its role, or be removed. -/
theorem write (h : Labelled r) {m : ModelId} {d : Datatype Kind}
    (hd : r.model? m = some (.datatype d)) (hr' : r.Edited (· = m) (· = m) r') {role : String}
    {value : Option Value} (hvalue : ∀ v, value = some v → Seated r' "" role v)
    (hfields : ∀ k, r'.templateField? m k =
      if role = k then value else r.templateField? m k) : Labelled r' := by
  refine h.edited hd hr' fun {k v} hv => ?_
  rw [hfields k] at hv
  split at hv
  · next hk => exact Or.inl (hk ▸ hvalue v hv)
  · exact Or.inr hv

/-- Additions touch no template. -/
theorem grew (h : Labelled r) (hr' : Step.Grew r r') : Labelled r' := by
  refine h.step hr'.1 hr'.2.preserves fun {m d' role v} hd' hv => ?_
  obtain ⟨d, g, hd, -⟩ := hr'.2.datatype_of hd'
  have hsame : r.SameBut (fun _ => False) (fun _ => False) r' := hr'.2.sameBut
  exact Or.inr ⟨d, hd, by rwa [hsame.templateField? h.wellFormed hd id] at hv⟩

theorem mapDatatype (h : Labelled r) {k : ModelId} {f : Datatype Kind → Datatype Kind}
    (hr' : (r.mapDatatype k f).WellFormed)
    (hf : ∀ d, (f d).kind = d.kind ∧ (f d).template = d.template ∧ (f d).registry = d.registry) :
    Labelled (r.mapDatatype k f) := by
  refine h.step hr' (Repository.preserves_mapDatatype fun d => (hf d).2.2) ?_
  intro m d' role v hd' hv
  obtain ⟨d, hd, -⟩ := Repository.model?_mapDatatype_datatype.mp hd'
  have hsame : r.SameBut (fun _ => False) (fun _ => True) (r.mapDatatype k f) :=
    Repository.sameBut_mapDatatype trivial hf
  exact Or.inr ⟨d, hd, by rwa [hsame.templateField? h.wellFormed hd id] at hv⟩

theorem addTemplate (h : Labelled r) (name : String) (kind : Kind) :
    Labelled (r.addTemplate name kind) := by
  refine h.step (h.wellFormed.addTemplate name kind)
    (Repository.preserves_addTemplate h.wellFormed name kind) fun {m d' role v} hd' hv => ?_
  rw [Repository.model?_addTemplate] at hd'
  split at hd'
  · next hm =>
    rw [hm, Repository.templateField?_eq_bind, Repository.templateFields?_addTemplate] at hv
    simp at hv
  · have hsame : r.SameBut (fun _ => False) (fun _ => True) (r.addTemplate name kind) :=
      Repository.sameBut_addTemplate trivial name kind
    exact Or.inr ⟨d', hd', by rwa [hsame.templateField? h.wellFormed hd' id] at hv⟩

theorem writeElement (h : Labelled r) (id : ObjectId) (index : Nat) (value : Value) :
    Labelled (r.writeElement id index value) := by
  have hsame : r.Unedited (fun _ => False) (r.writeElement id index value) :=
    Repository.unedited_writeElement h.wellFormed id index value
  refine h.step (h.wellFormed.writeElement id index value) hsame.preserves ?_
  intro m d role v hd hv
  rw [Repository.model?_writeElement] at hd
  exact Or.inr ⟨d, hd, by rwa [hsame.field hd not_false] at hv⟩

end Labelled

theorem labelled_growing : Repository.Growing (Labelled : Repository (system limits) → Prop) where
  wellFormed := Labelled.wellFormed
  grew := Labelled.grew

theorem labelled_declarative :
    Repository.Declarative fun r : Repository (system limits) => r.Consistent ∧ Labelled r where
  wellFormed h := h.1.wellFormed
  addTemplate name kind h :=
    ⟨consistent_declarative.addTemplate name kind h.1, h.2.addTemplate name kind⟩
  mapEntries m f hf h := by
    have h' := consistent_declarative.mapEntries m hf h.1
    exact ⟨h', h.2.mapDatatype h'.wellFormed fun _ => ⟨rfl, rfl, rfl⟩⟩
  putQualifiers m qs h := by
    have h' := consistent_declarative.putQualifiers m qs h.1
    exact ⟨h', h.2.mapDatatype h'.wellFormed fun _ => ⟨rfl, rfl, rfl⟩⟩
  putScope m _ h hscope := by
    have h' := consistent_declarative.putScope m h.1 hscope
    exact ⟨h', h.2.mapDatatype h'.wellFormed fun _ => ⟨rfl, rfl, rfl⟩⟩

section Edits

variable {template : ObjectId} {m : ModelId}

/-- A constructor writes the mark of a union and the values of enumerators. -/
theorem labelled_leaf (h : Labelled r) {d : Datatype Kind} (hd : r.model? m = some (.datatype d))
    (hleaf : Leaf role v) :
    (Step.updateInstances m role (some v)).Ensures r (fun _ => Labelled) fun _ => Labelled := by
  have hwritten : ∀ r', Step.Updated m role (some v) r r' → Labelled r' := fun r' h' =>
    h.write hd h'.edited.weaken (fun w hw => Option.some.inj hw ▸ .of_leaf hleaf) h'.field
  exact (Step.updateInstances_updated h.wellFormed hd role (some v)).imp (fun _ => hwritten)
    fun _ => hwritten

theorem defineMember_isValid (template : ObjectId) (member : Member) :
    (Step.defineMember template member).Ensures r (fun _ _ => Role.isValid member.role = true)
      fun _ _ => True := by
  by_cases hrole : Role.isValid member.role = true
  · exact (ensures_true _ r).imp (fun _ _ _ => hrole) fun _ _ h => h
  · simp [Step.defineMember, hrole]

variable (h : r.Consistent) (hlabelled : Labelled r)
include h hlabelled

theorem labelled_defineMember (template : ObjectId) (member : Member) :
    (Step.defineMember template member).Ensures r (fun _ => Labelled) fun _ => Labelled := by
  refine Step.ensures_canonical (fun _ => hlabelled) fun m hm => ?_
  obtain ⟨-, d, hd, -⟩ := Repository.canonicalModel_eq_ok_iff.mp hm
  have hfields := Step.defineMember_fields_of h.wellFormed hm member
    (Step.createRoleInstance_rooted h.wellFormed _ _ _) fun hpreserves hv => hv.preserves hpreserves
  refine (((Step.allOrNothing_defineMember h template member).and hfields).and
    (defineMember_isValid template member)).imp ?_ ?_
  · rintro _ r' ⟨⟨-, hedited, -, v, hv, hfields⟩, hrole⟩
    refine hlabelled.write hd hedited (fun w hw => ?_) hfields
    obtain rfl := Option.some.inj hw
    exact .rooted hrole (by rwa [Path.join_empty_left])
  · rintro _ r' ⟨⟨rfl, -⟩, -⟩
    exact hlabelled

theorem labelled_removeMember (template : ObjectId) (role : String) :
    (Step.removeMember template role).Ensures r (fun _ => Labelled) fun _ => Labelled := by
  refine Step.ensures_canonical (fun _ => hlabelled) fun m hm => ?_
  obtain ⟨-, d, hd, -⟩ := Repository.canonicalModel_eq_ok_iff.mp hm
  refine ((Step.allOrNothing_removeMember h template role).and
    (Step.removeMember_fields h.wellFormed hm role)).imp ?_ ?_
  · rintro _ r' ⟨-, rfl | ⟨-, hedited, -, hfields⟩⟩
    · exact hlabelled
    · exact hlabelled.write hd hedited (fun w hw => by simp at hw) hfields
  · rintro _ r' ⟨rfl, -⟩
    exact hlabelled

/-- What is inherited has the name that it has in the base. -/
theorem labelled_setBase (template : ObjectId) {base : Option ObjectId}
    (hbase : ∀ b, base = some b → r.kind? b = some Kind.struct) :
    (Step.setBase template base).Ensures r (fun _ => Labelled) fun _ => Labelled := by
  refine Step.ensures_canonical (fun _ => hlabelled) fun m hm => ?_
  obtain ⟨-, d, hd, -⟩ := Repository.canonicalModel_eq_ok_iff.mp hm
  refine (setBase_rebased h hm hbase).imp ?_ fun _ r' h' => h'.symm ▸ hlabelled
  rintro _ r' ⟨-, hrebased, hinherited⟩
  refine hlabelled.edited hd hrebased.edited fun {k w} hw => ?_
  by_cases hk : k ∈ base.elim [] r.rolesOf
  · cases base with
    | none => simp at hk
    | some b =>
      obtain ⟨n, hn, -⟩ := Option.bind_eq_some_iff.mp (hbase b rfl)
      obtain ⟨-, ⟨e, he⟩, hcopies⟩ := hinherited b rfl n hn
      obtain ⟨u, hu⟩ := (h.wellFormed.mem_rolesOf hn he).mp hk
      obtain ⟨w', hw', hfollows⟩ := hcopies k u hu
      obtain rfl := Option.some.inj (hw.symm.trans hw')
      exact Or.inl (((hlabelled.seated he hu).preserves hrebased.edited.sameBut.preserves).follow
        hfollows)
  · exact Or.inr (hrebased.before hk hw).1

end Edits

theorem labelled_editable :
    Editable fun r : Repository (system limits) => r.Consistent ∧ Labelled r where
  toDeclarative := labelled_declarative
  leaf m role v hleaf := by
    refine ⟨fun r h => ?_⟩
    obtain ⟨⟨h, hlabelled⟩, d, hd⟩ := h
    refine (((consistent_editable.leaf m hleaf).ensures r ⟨h, d, hd⟩).and
      (labelled_leaf hlabelled hd hleaf)).imp ?_ ?_
    all_goals exact fun _ _ h' => ⟨⟨h'.1.1, h'.2⟩, h'.1.2⟩
  member template member := by
    refine ⟨fun r h => ?_⟩
    exact ((consistent_editable.member template member).ensures r h.1).and
      (labelled_defineMember h.1 h.2 template member)
  base template base r h hbase :=
    (consistent_editable.base template base r h.1 hbase).and
      (labelled_setBase h.1 h.2 template hbase)

/-! ## Operations -/

theorem Operation.Shapes.keepsInstances {operation : Operation} (hop : operation.Shapes) :
    operation.KeepsInstances r := by
  cases operation with
  | repository inner =>
    cases inner with
    | removeMember | newInstance | element => trivial
    | _ => exact hop.elim
  | _ => trivial

theorem Operation.perform_labelled (h : r.Consistent ∧ Labelled r) {operation : Operation}
    (hop : operation.Shapes) :
    (operation.perform r).Consistent ∧ Labelled (operation.perform r) := by
  refine operation.perform_editable labelled_editable ?_ h
  rintro inner rfl
  refine ⟨Operation.perform_consistent h.1 hop.keepsInstances, ?_⟩
  cases inner with
  | removeMember template role => exact (labelled_removeMember h.1 h.2 template role).repo
  | newInstance template under owned =>
    exact (Step.keeps_newInstance labelled_growing template under owned).repo h.2
  | element id index =>
    exact (Step.keeps_element labelled_growing (fun id index v h hr' _ =>
      (h.grew hr').writeElement id index v) id index).repo h.2
  | _ => exact hop.elim

theorem Operation.perform_numbered (h : r.Numbered) {operation : Operation}
    (hop : operation.Shapes) : (operation.perform r).Numbered :=
  Operation.perform_shapes Repository.numbered_declarative (fun m f h => h.mapEntries m f)
    Repository.installs_numbered (Step.keeps_newInstance Repository.numbered_growing)
    Step.numbered_element h hop

/-! ## Runs -/

/-- Fields of composites and elements of collections are named for where they are. -/
structure Addressed (r : Repository (system limits)) : Prop where
  wellFormed : r.WellFormed
  field : ∀ {x role v}, r.field? x role = some v → Seated r (r.registeredName x) role v
  element : ∀ {c s i v}, r.shape c = .ok s → (r.elements? c).bind (·.get? i) = some v →
    r.Rooted (Path.element s.name i) v

theorem addressed_of_reached
    (h : Reached Operation.perform (fun _ operation => operation.Shapes) (initial limits) r) :
    Addressed r := by
  have hlabelled : r.Consistent ∧ Labelled r := by
    refine h.invariant (initial_of_empty labelled_declarative ⟨Repository.consistent_empty, ?_⟩)
      fun _ _ hr hop => Operation.perform_labelled hr hop
    exact ⟨Repository.wellFormed_empty, fun hd => by simp at hd⟩
  have hnumbered : r.Numbered := by
    refine h.invariant (initial_of_empty Repository.numbered_declarative ?_)
      fun _ _ hr hop => Operation.perform_numbered hr hop
    exact ⟨Repository.wellFormed_empty, fun ho => by simp at ho⟩
  refine ⟨hnumbered.wellFormed, fun {x role v} hv => ?_, fun {c s i v} hs hv => ?_⟩
  · obtain ⟨h, hlabelled⟩ := hlabelled
    obtain ⟨m, f, ho, hv⟩ := Repository.field?_eq_some_iff.mp hv
    obtain ⟨d, hd⟩ := h.wellFormed.composite ho
    obtain ⟨fT, hT⟩ := h.wellFormed.template hd
    obtain ⟨u, hu, hfollows⟩ := (h.follows_template ho hd hT).symm.of_get? hv
    rw [← Repository.templateField?_eq hd hT] at hu
    exact (hlabelled.seated hd hu).follow hfollows
  · obtain ⟨es, hes, hv⟩ := Option.bind_eq_some_iff.mp hv
    obtain ⟨m, ho⟩ := Repository.elements?_eq_some_iff.mp hes
    exact hnumbered.rooted ho hs hv

end Idl

end Metamodel
