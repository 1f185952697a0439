import Metamodel.Proofs.Answers
import Metamodel.Proofs.Copies
import Metamodel.Proofs.Entries
import Metamodel.Proofs.Operation
import Metamodel.Proofs.Worklist

/-!
# Metamodel.Proofs.Invariant -- properties that operations keep, walked through once

`Declarative P` says that changes of declarations keep a property of repositories, `Growing P` that
additions do, and `Closed P` that besides both new elements and removals keep it, which leaves the
writing of fields. Each operation is walked through here for every such property; where it writes
fields, under the assumption that this does no harm, which each property has to show in its own way.
-/

namespace Metamodel

variable {κ : Type} {ts : TypeSystem κ} {r : Repository ts}

namespace Repository

/-- A change of declaration lists that declares no member. -/
def Undeclaring (f : List Entry → List Entry) : Prop :=
  ∀ entries role, (f entries).any (Entry.declares role) = true →
    entries.any (Entry.declares role) = true

/-- A change of declaration lists that adds no qualifier, but for annotations that are there. -/
def Annotating (r : Repository ts) (f : List Entry → List Entry) : Prop :=
  ∀ entries q, Entry.qualifier q ∈ f entries →
    Entry.qualifier q ∈ entries ∨ r.isQualifier q = true

theorem annotating_define (member : Member) : r.Annotating (Entry.define member) :=
  fun _ _ hq => Or.inl ((Entry.mem_define hq).resolve_left (by simp))

/-- A change of declaration lists that declares no member and adds no qualifier that is none. -/
structure Harmless (r : Repository ts) (f : List Entry → List Entry) : Prop where
  undeclaring : Undeclaring f
  annotating : r.Annotating f

theorem harmless_append {entry : Entry} (hentry : entry.member? = none)
    (hqualifier : ∀ q, entry = .qualifier q → r.isQualifier q = true) :
    r.Harmless (· ++ [entry]) where
  undeclaring entries role h := by simpa [Entry.declares, hentry] using h
  annotating entries q hq := by
    rcases List.mem_append.mp hq with hold | hnew
    · exact Or.inl hold
    · exact Or.inr (hqualifier q (List.mem_singleton.mp hnew).symm)

theorem harmless_remove (role : String) : r.Harmless (Entry.remove role) where
  undeclaring entries k h := by
    obtain ⟨entry, hmem, hk⟩ := List.any_eq_true.mp h
    exact List.any_eq_true.mpr ⟨entry, (List.mem_filter.mp hmem).1, hk⟩
  annotating _ _ hq := Or.inl (List.mem_filter.mp hq).1

theorem harmless_rebase (base : Option ObjectId) : r.Harmless (Entry.rebase base) where
  undeclaring _ _ := Entry.any_declares_rebase
  annotating _ _ hq := Or.inl ((Entry.mem_rebase hq).resolve_left (by simp))

/-- Listing a datatype in a namespace declares nothing. -/
theorem harmless_list (child : ObjectId) :
    r.Harmless fun entries =>
      if entries.contains (.type child) then entries else entries ++ [.type child] := by
  have happend : r.Harmless (· ++ [Entry.type child]) := harmless_append rfl (by simp)
  constructor
  case undeclaring =>
    intro entries role h
    dsimp only at h
    split at h
    · exact h
    · exact happend.undeclaring entries role h
  case annotating =>
    intro entries q hq
    dsimp only at hq
    split at hq
    · exact Or.inl hq
    · exact happend.annotating entries q hq

/-- A property of well-formed repositories that new datatypes and changes of declarations keep, as
long as no member is declared. -/
structure Declarative (P : Repository ts → Prop) : Prop where
  wellFormed : ∀ {r}, P r → r.WellFormed
  addTemplate : ∀ {r} name kind, P r → P (r.addTemplate name kind)
  mapEntries : ∀ {r} m {f}, r.Harmless f → P r → P (r.mapEntries m f)
  putQualifiers : ∀ {r} m qs, P r → P (r.putQualifiers m qs)
  putScope : ∀ {r} m {scope}, P r → r.MayEnclose scope → P (r.putScope m scope)

/-- That a model is a datatype may be kept in mind besides. -/
theorem Declarative.and_datatype {P : Repository ts → Prop} (hP : Declarative P) (m : ModelId) :
    Declarative fun r => P r ∧ ∃ d, r.model? m = some (.datatype d) where
  wellFormed h := hP.wellFormed h.1
  addTemplate name kind h := by
    obtain ⟨h, d, hd⟩ := h
    exact ⟨hP.addTemplate name kind h, d, by rw [model?_addTemplate, if_neg (ne_nextModel hd), hd]⟩
  mapEntries k _ hf h := by
    obtain ⟨h, d, hd⟩ := h
    exact ⟨hP.mapEntries k hf h, _, model?_mapDatatype_datatype.mpr ⟨d, hd, rfl⟩⟩
  putQualifiers k qs h := by
    obtain ⟨h, d, hd⟩ := h
    exact ⟨hP.putQualifiers k qs h, _, model?_mapDatatype_datatype.mpr ⟨d, hd, rfl⟩⟩
  putScope k _ h hs := by
    obtain ⟨h, d, hd⟩ := h
    exact ⟨hP.putScope k h hs, _, model?_mapDatatype_datatype.mpr ⟨d, hd, rfl⟩⟩

/-- A property of well-formed repositories that additions keep. -/
structure Growing (P : Repository ts → Prop) : Prop where
  wellFormed : ∀ {r}, P r → r.WellFormed
  grew : ∀ {r r'}, P r → Step.Grew r r' → P r'

/-- A property that can be broken by writing fields only. -/
structure Closed (P : Repository ts → Prop) : Prop extends Declarative P, Growing P where
  writeElement : ∀ {r} id index value, P r → P (r.writeElement id index value)
  free : ∀ {r id}, P r → r.NoTemplate id → P (r.free id)

/-- A new element is added and then written. -/
theorem Closed.writeNew {P : Repository ts → Prop} (hP : Closed P) {r r' : Repository ts}
    (id : ObjectId) (index : Nat) {v : Value} (h : P r) (hr' : Step.Grew r r')
    (_ : Loose r r' v) : P (r'.writeElement id index v) :=
  hP.writeElement id index v (hP.grew h hr')

/-- Freeing objects one after the other; none becomes a template by it. -/
theorem freeAll_of_free {P : Repository ts → Prop}
    (hfree : ∀ {r id}, P r → r.NoTemplate id → P (r.free id)) {ids : List ObjectId} (h : P r)
    (hids : ∀ id ∈ ids, r.NoTemplate id) : P (r.freeAll ids) := by
  induction ids generalizing r with
  | nil => exact h
  | cons id rest ih =>
    -- Freeing changes registries only, so that the others are still no templates.
    refine ih (hfree h (hids id List.mem_cons_self)) fun x hx m d hd => ?_
    obtain ⟨d₀, _, hd₀, rfl⟩ := datatype_of_free hd
    exact hids x (List.mem_cons_of_mem id hx) m d₀ hd₀

/-! ## What a release frees -/

/-- What holds of the objects to start with, and is passed on to what they hold unless that is
spared, holds of everything that is found. -/
theorem ownedFrom_induction {Q : ObjectId → Prop} {root : ObjectId}
    (hheld : ∀ {a o x}, Q a → r.object? a = some o → x ∈ o.held → r.isSpared root x = false → Q x)
    {rounds : Nat} {found stack : List ObjectId} (hfound : ∀ x ∈ found, Q x)
    (hstack : ∀ x ∈ stack, r.isSpared root x = false → Q x) :
    ∀ x ∈ r.ownedFrom root rounds found stack, Q x := by
  induction rounds generalizing found stack with
  | zero => exact hfound
  | succ rounds ih =>
    unfold ownedFrom
    split
    · exact hfound
    · next id rest hdrop =>
      obtain ⟨hid, hrest⟩ := mem_of_dropWhile_eq_cons hdrop
      have hspared := (Bool.or_eq_false_iff.mp (of_dropWhile_eq_cons hdrop).1).2
      refine ih (fun x hx => ?_) fun x hx => ?_
      · rcases List.mem_cons.mp hx with rfl | hx
        · exact hstack x hid hspared
        · exact hfound x hx
      · rcases List.mem_append.mp hx with hx | hx
        · cases ho : r.object? id with
          | none => simp [ho] at hx
          | some o =>
            rw [ho, Option.elim_some] at hx
            exact hheld (hstack id hid hspared) ho hx
        · exact hstack x (hrest x hx)

/-- A template is bound to its datatype, so that what is not the template of its model is none. -/
theorem WellFormed.noTemplate_of_modelOf (h : r.WellFormed) {id : ObjectId} {m : ModelId}
    (hm : r.modelOf id = .ok m) (hne : r.template? m ≠ some id) : r.NoTemplate id := by
  rintro k d hd rfl
  obtain ⟨f, ho⟩ := h.template hd
  obtain rfl : k = m := by
    have := modelOf_eq_ok_iff.mp hm
    simpa [modelOf?, ho, Object.model] using this
  exact hne (template?_datatype hd)

/-- A release of an object that is no template passes every template by. -/
theorem WellFormed.noTemplate_of_not_spared (h : r.WellFormed) {root x : ObjectId}
    (hroot : r.NoTemplate root) (hx : r.isSpared root x = false) : r.NoTemplate x := by
  rintro m d hd rfl
  obtain ⟨f, ho⟩ := h.template hd
  have hmodel : r.modelOf? d.template = some m := modelOf?_of_object? ho
  have hkind : r.kindOf? m = some d.kind := kindOf?_eq_some_iff.mpr ⟨d, hd, rfl⟩
  simp [isSpared, isTemplate, hmodel, hkind, template?_datatype hd, hroot m d hd,
    isLive_iff.mpr ⟨_, ho⟩] at hx

/-- A release of an object that is no template frees no template. -/
theorem WellFormed.noTemplate_of_owned (h : r.WellFormed) {root x : ObjectId}
    (hroot : r.NoTemplate root) (hx : x ∈ r.owned root) : r.NoTemplate x := by
  refine ownedFrom_induction (fun _ _ _ => h.noTemplate_of_not_spared hroot) (by simp) ?_ x hx
  exact fun y _ => h.noTemplate_of_not_spared hroot

end Repository

/-! ## Indices -/

/-- The index is from 1 on and within the capacity, if there is one. -/
def WithinCapacity (capacity : Option Nat) (index : Nat) : Prop :=
  0 < index ∧ ∀ n, capacity = some n → index ≤ n

/-- The index is one at which a collection of the shape may have an element. -/
def Shape.Admits (s : Shape) (index : Nat) : Prop :=
  WithinCapacity s.capacity index

theorem Shape.not_admits_iff {s : Shape} {index : Nat} :
    ¬ s.Admits index ↔ index = 0 ∨ s.capacity.any (· < index) = true := by
  rw [Admits, WithinCapacity, not_and_or, Nat.pos_iff_ne_zero, not_not, Option.any_eq_true]
  simp

namespace Step

open Repository (Declarative Growing Closed)

variable {P : Repository ts → Prop}

/-! ## Declarations -/

theorem keeps_newTemplate_of {name : String} {kind : κ}
    (hadd : ∀ {r : Repository ts}, P r → P (r.addTemplate name kind)) :
    Keeps P (newTemplate name kind) := by
  refine (keeps_ask _).bind fun template => (keeps_ask _).bind fun m => ?_
  refine (keeps_edit fun _ h => hadd h).bind fun _ => ?_
  exact (keeps_note _).bind fun _ => keeps_pure (template, m)

section Declarations

variable (hP : Declarative P)

include hP

theorem keeps_mapEntries (m : ModelId) {f : List Entry → List Entry}
    (hf : ∀ r : Repository ts, r.Harmless f) : Keeps P (edit (·.mapEntries m f)) :=
  keeps_edit fun r h => hP.mapEntries m (hf r) h

theorem keeps_newTemplate (name : String) (kind : κ) : Keeps P (newTemplate name kind) :=
  keeps_newTemplate_of (hP.addTemplate name kind)

/-- The model of a new template is a datatype. -/
theorem newTemplate_ensures (h : P r) (name : String) (kind : κ) :
    (newTemplate name kind).Ensures r
      (fun made r' => P r' ∧ ∃ d, r'.model? made.2 = some (.datatype d)) fun _ _ => False := by
  simp only [newTemplate, ensures_bind, ensures_ask, ensures_edit, ensures_note, ensures_pure]
  refine ⟨hP.addTemplate name kind h, r.freshDatatype name kind, ?_⟩
  rw [Repository.model?_addTemplate, if_pos rfl]

omit hP in
/-- A qualifier that is accepted is one. -/
theorem checkEntry_ensures (entry : Entry) (h : P r) :
    (checkEntry entry).Ensures r
      (fun _ r' => P r' ∧ ∀ q, entry = .qualifier q → r'.isQualifier q = true) fun _ => P := by
  cases entry with
  | qualifier q =>
    simp only [checkEntry, ensures_query]
    refine ⟨fun _ hq => ⟨h, fun q' hq' => ?_⟩, fun _ _ => h⟩
    obtain rfl := Entry.qualifier.inj hq'
    exact Repository.assertQualifiers_eq_ok_iff.mp hq q List.mem_cons_self
  | type target =>
    simp only [checkEntry, ensures_bind, ensures_query, ensures_pure]
    exact ⟨fun _ _ => ⟨h, by simp⟩, fun _ _ => h⟩
  | member m => exact ⟨h, by simp⟩
  | value name scalar => exact ⟨h, by simp⟩

theorem keeps_setQualifiers (template : ObjectId) (qualifiers : List Qualifier) :
    Keeps P (setQualifiers template qualifiers) := by
  refine (keeps_query _).bind fun m => (keeps_query _).bind fun _ => ?_
  exact keeps_edit fun _ h => hP.putQualifiers m qualifiers h

/-- An entry that declares no member only goes into the declaration. -/
theorem keeps_appendEntry_of_not_member (template : ObjectId) {entry : Entry}
    (hentry : entry.member? = none) : Keeps P (appendEntry template entry) := by
  refine (keeps_query _).bind fun m => ⟨fun r h => ?_⟩
  split
  · simp [Entry.member?] at hentry
  · rw [ensures_bind]
    refine (checkEntry_ensures entry h).imp ?_ fun _ _ h => h
    rintro _ r' ⟨h', hqualifier⟩
    exact hP.mapEntries m (Repository.harmless_append hentry hqualifier) h'

theorem keeps_appendEntry (template : ObjectId) (entry : Entry)
    (hdefine : ∀ member, Keeps P (defineMember template member)) :
    Keeps P (appendEntry template entry) := by
  cases entry with
  | member member => exact (keeps_query _).bind fun _ => hdefine member
  | type target => exact keeps_appendEntry_of_not_member hP template rfl
  | qualifier q => exact keeps_appendEntry_of_not_member hP template rfl
  | value name scalar => exact keeps_appendEntry_of_not_member hP template rfl

theorem keeps_appendAll (template : ObjectId) (entries : List Entry)
    (hdefine : ∀ member, Keeps P (defineMember template member)) :
    Keeps P (appendAll template entries) := by
  induction entries with
  | nil => exact keeps_pure []
  | cons entry rest ih =>
    refine (keeps_ask _).bind fun kept => ?_
    split
    · exact ih.bind fun qs => keeps_pure _
    · exact (keeps_appendEntry hP template entry hdefine).bind fun _ => ih

theorem keeps_populateTemplate (template : ObjectId) (entries : List Entry)
    (hdefine : ∀ member, Keeps P (defineMember template member)) :
    Keeps P (populateTemplate template entries) := by
  refine (keeps_query _).bind fun m => ?_
  refine (keeps_appendAll hP template entries hdefine).bind fun qs => ?_
  exact (keeps_edit fun _ h => hP.putQualifiers m qs h).bind fun _ => keeps_pure template

theorem keeps_removeMember (template : ObjectId) (role : String)
    (hremove : ∀ m, Keeps P (updateInstances m role none)) :
    Keeps P (removeMember template role) := by
  refine (keeps_query _).bind fun m => (keeps_ask _).bind fun declared => ?_
  split
  · refine (keeps_mapEntries hP m fun _ => Repository.harmless_remove role).bind fun _ => ?_
    refine (keeps_note _).bind fun _ => ?_
    exact (hremove m).bind fun _ => keeps_pure true
  · exact keeps_pure false

end Declarations

/-- The namespace that is asked for is a datatype of the repository. -/
theorem keeps_setScope
    (hscope : ∀ {r : Repository ts} m {scope}, P r → r.MayEnclose scope → P (r.putScope m scope))
    (template : ObjectId) (scope : Option ObjectId) : Keeps P (setScope template scope) := by
  refine (keeps_query _).bind fun m => ⟨fun r h => ?_⟩
  simp only [ensures_bind, ensures_query, ensures_edit]
  refine ⟨fun outer houter => hscope m h fun n hn => ?_, fun _ _ => h⟩
  subst hn
  obtain ⟨x, -, hx⟩ := mapM_eq_ok_some houter
  obtain ⟨-, d, hd, -⟩ := Repository.canonicalModel_eq_ok_iff.mp hx
  exact ⟨d, hd⟩

/-- Two declarations are changed, that of the child and the list of the namespace. -/
theorem keeps_addToScope_of
    (hscope : ∀ {r : Repository ts} m {scope}, P r → r.MayEnclose scope → P (r.putScope m scope))
    {scope child : ObjectId}
    (hlist : ∀ {r : Repository ts} m, P r → r.canonicalModel scope = .ok m →
      P (r.mapEntries m fun entries =>
        if entries.contains (.type child) then entries else entries ++ [.type child])) :
    Keeps P (addToScope scope child) := by
  refine (keeps_setScope hscope child (some scope)).bind fun _ => ⟨fun r h => ?_⟩
  simp only [ensures_bind, ensures_query, ensures_edit]
  exact ⟨fun outer houter => hlist outer h houter, fun _ _ => h⟩

theorem keeps_addToScope (hP : Declarative P) (scope child : ObjectId) :
    Keeps P (addToScope scope child) :=
  keeps_addToScope_of hP.putScope fun outer h _ =>
    hP.mapEntries outer (Repository.harmless_list child) h

/-! ## Checks -/

theorem keeps_checkContainment (m : ModelId) (member : Member) :
    Keeps P (checkContainment m member) := by
  refine (keeps_ask _).bind fun wrapped => ?_
  split
  · exact keeps_pure ()
  · refine (keeps_query _).bind fun reaches => ?_
    split
    · exact (keeps_ask _).bind fun _ => keeps_fail _
    · exact keeps_pure ()

theorem keeps_checkBase (m : ModelId) (base : Option ObjectId) :
    Keeps P (checkBase m base) := by
  cases base with
  | none => exact keeps_pure none
  | some b =>
    refine (keeps_query _).bind fun _ => (keeps_query _).bind fun bm => ?_
    refine (keeps_query _).bind fun reaches => ?_
    split
    · exact (keeps_ask _).bind fun _ => (keeps_ask _).bind fun _ => keeps_fail _
    · exact keeps_pure (some bm)

theorem keeps_dropInherited (m : ModelId) (roles : List String)
    (hremove : ∀ role, Keeps P (updateInstances m role none)) :
    Keeps P (dropInherited m roles) := by
  refine keeps_forEach roles fun role _ => (keeps_ask _).bind fun declared => ?_
  split
  · exact keeps_pure ()
  · exact hremove role

theorem keeps_leaveBase (m : ModelId) (hremove : ∀ role, Keeps P (updateInstances m role none)) :
    Keeps P (leaveBase m) := by
  refine (keeps_ask _).bind fun old => ?_
  cases old with
  | none => exact keeps_pure ()
  | some b => exact (keeps_query _).bind fun roles => keeps_dropInherited m roles hremove

/-! ## Instances and collections -/

section Additions

variable (hP : Growing P)

include hP

theorem keeps_of_makesValue {x : Step ts Value} (hx : ∀ r, r.WellFormed → MakesValue x r) :
    Keeps P x := by
  refine ⟨fun r h => ?_⟩
  exact (hx r (hP.wellFormed h)).imp (fun _ _ h' => hP.grew h h'.1) fun _ _ h' => hP.grew h h'

theorem keeps_of_makesCollection {x : Step ts ObjectId}
    (hx : ∀ r, r.WellFormed → MakesCollection x r) : Keeps P x := by
  refine ⟨fun r h => ?_⟩
  exact (hx r (hP.wellFormed h)).imp (fun _ _ h' => hP.grew h h'.1) fun _ _ h' => h'.symm ▸ h

theorem keeps_newInstance (template : ObjectId) (under : String) (owned : Bool) :
    Keeps P (newInstance template under owned) :=
  keeps_of_makesValue hP fun _ h => newInstance_makes h template under owned

theorem keeps_cloneValue (value : Value) (under : String) (owned : Bool) :
    Keeps P (cloneValue value under owned) :=
  keeps_of_makesValue hP fun _ h => cloneValue_makes h value under owned

theorem keeps_createRoleInstance (datatype : ObjectId) (role : String)
    (qualifiers : List Qualifier) :
    Keeps P (createRoleInstance datatype role qualifiers) :=
  keeps_of_makesValue hP fun _ h => createRoleInstance_makes h datatype role qualifiers

theorem keeps_newCollection (content : ObjectId) (bound : Bound) (name : String) (owned : Bool) :
    Keeps P (newCollection content bound name owned) :=
  keeps_of_makesCollection hP fun _ h => newCollection_makes h content bound name owned

theorem keeps_copyCollection (source : ObjectId) (under : String) (owned : Bool) :
    Keeps P (copyCollection source under owned) :=
  keeps_of_makesCollection hP fun _ h => copyCollection_makes h source under owned

end Additions

/-! ## Fields -/

/-- The field of a live composite is written, or nothing is done. -/
theorem ensures_setField (h : P r) {id : ObjectId} {role : String} {value : Option Value}
    (hwrite : ∀ m f, r.object? id = some (.composite m f) → P (r.writeField id role value)) :
    (setField id role value).Ensures r (fun _ => P) fun _ => P := by
  simp only [setField, ensures_bind, ensures_query]
  refine ⟨fun object hobject => ?_, fun _ _ => h⟩
  cases object with
  | composite m f => exact hwrite m f (Repository.object_eq_ok_iff.mp hobject)
  | collection m es => exact h

/-- A field is installed in the instances one after the other. -/
theorem keeps_propagate {role : String} {value : Option Value} {targets : List (ObjectId × String)}
    (hremove : ∀ target ∈ targets, Keeps P (setField target.1 role none))
    (hcopy : ∀ v, ∀ target ∈ targets, Keeps P (do
      let copy ← cloneValue v target.2 true
      setField target.1 role (some copy))) : Keeps P (propagate role value targets) := by
  induction targets with
  | nil => exact keeps_pure 0
  | cons target rest ih =>
    have hrest := ih (fun other hother => hremove other (List.mem_cons_of_mem target hother))
      fun v other hother => hcopy v other (List.mem_cons_of_mem target hother)
    have hcount : Keeps P (do
        let count ← propagate role value rest
        pure (count + 1)) := hrest.bind fun count => keeps_pure (count + 1)
    refine (keeps_ask _).bind fun isLive => ?_
    split
    · refine ⟨fun r h => ?_⟩
      cases value with
      | none =>
        rw [ensures_bind, ensures_pure]
        exact ((hremove target List.mem_cons_self).bind fun _ => hcount).ensures r h
      | some v =>
        have hcopied := (hcopy v target List.mem_cons_self).ensures r h
        rw [ensures_bind] at hcopied
        rw [ensures_bind, ensures_map]
        refine hcopied.imp (fun copy r' h' => ?_) fun _ _ h' => h'
        rw [ensures_bind]
        exact h'.imp (fun _ r'' h'' => hcount.ensures r'' h'') fun _ _ h'' => h''
    · exact hrest

theorem keeps_propagate_of_setField (hP : Growing P) {role : String} (value : Option Value)
    {targets : List (ObjectId × String)}
    (hset : ∀ target ∈ targets, ∀ copy, Keeps P (setField target.1 role copy)) :
    Keeps P (propagate role value targets) :=
  keeps_propagate (fun target htarget => hset target htarget none) fun v target htarget =>
    (keeps_cloneValue hP v target.2 true).bind fun copy => hset target htarget (some copy)

/-! ## Elements and releases -/

/-- An element of a collection: the index is refused, or the element is there, or it is made and
written. -/
theorem ensures_element {id : ObjectId} {index : Nat} {s : Shape} (hs : r.shape id = .ok s)
    {ok : Value → Repository ts → Prop} {fails : Error → Repository ts → Prop}
    (hbounds : ¬ s.Admits index → fails (.bounds s.name index (s.capacity.getD 0)) r)
    (hpresent : ∀ v, s.Admits index → (r.elements? id).bind (·.get? index) = some v → ok v r)
    (hcontent : ∀ e, r.valueOf s.element = .error e → fails e r)
    (hmake : ∀ content, s.Admits index → (r.elements? id).bind (·.get? index) = none →
      r.valueOf s.element = .ok content →
      (cloneValue content (Path.element s.name index) (decide (s.origin = .template))).Ensures r
        (fun v r' => ok v (r'.writeElement id index v)) fails) :
    (element id index).Ensures r ok fails := by
  simp only [element, ensures_bind, ensures_query, hs]
  refine ⟨fun s' hs' => ?_, fun e he => by simp at he⟩
  obtain rfl := Except.ok.inj hs'
  split
  · next hout => exact hbounds (Shape.not_admits_iff.mpr hout)
  · next hin =>
    have hadmits : s.Admits index := not_not.mp (mt Shape.not_admits_iff.mp hin)
    rw [ensures_bind, ensures_ask]
    split
    · next v hv => exact hpresent v hadmits hv
    · next hnone =>
      simp only [ensures_bind, ensures_query, ensures_note, ensures_edit, ensures_pure]
      exact ⟨fun content => hmake content hadmits hnone, hcontent⟩

/-- What is left to show for an element: that it can be made and written, where there is none yet.
-/
theorem element_ensures {id : ObjectId} {index : Nat} {ok : Value → Repository ts → Prop}
    {fails : Error → Repository ts → Prop} (hrefused : ∀ e, fails e r)
    (hpresent : ∀ v, (r.elements? id).bind (·.get? index) = some v → ok v r)
    (hmake : ∀ s content, r.shape id = .ok s → r.valueOf s.element = .ok content →
      (cloneValue content (Path.element s.name index) (decide (s.origin = .template))).Ensures r
        (fun v r' => ok v (r'.writeElement id index v)) fails) :
    (element id index).Ensures r ok fails := by
  cases hs : r.shape id with
  | ok s =>
    exact ensures_element hs (fun _ => hrefused _) (fun v _ => hpresent v) (fun e _ => hrefused e)
      fun content _ _ => hmake s content hs
  | error e =>
    simp only [element, ensures_bind, ensures_query, hs]
    exact ⟨fun s hs' => by simp at hs', fun e _ => hrefused e⟩

/-- A new element is made of what nothing holds, and then written. -/
theorem keeps_element (hP : Growing P)
    (hwrite : ∀ {r r'} id index {v}, P r → Grew r r' → Repository.Loose r r' v →
      P (r'.writeElement id index v)) (id : ObjectId) (index : Nat) :
    Keeps P (element id index) := by
  refine ⟨fun r h => element_ensures (fun _ => h) (fun _ _ => h) fun s content _ _ => ?_⟩
  refine (cloneValue_makes (hP.wellFormed h) content _ _).imp ?_ fun _ _ h' => hP.grew h h'
  rintro v r' ⟨hgrew, hloose⟩
  exact hwrite id index h hgrew hloose

theorem keeps_setElement_of_element {id : ObjectId} {index : Nat} {value : Value}
    (helement : Keeps P (element id index))
    (hwrite : ∀ r, P r → P (r.writeElement id index value)) :
    Keeps P (setElement id index value) := by
  refine helement.bind fun current => ?_
  split
  · exact (keeps_query _).bind fun _ => keeps_fail _
  · exact keeps_edit hwrite

/-- What is released is not the template of its model. -/
theorem releaseInstance_ensures (h : P r) {id : ObjectId}
    (hfree : ∀ m, r.modelOf id = .ok m → r.template? m ≠ some id → P (r.freeAll (r.owned id))) :
    (releaseInstance id).Ensures r (fun _ => P) fun _ => P := by
  simp only [releaseInstance, ensures_bind, ensures_query, ensures_ask]
  refine ⟨fun m hm => ?_, fun _ _ => h⟩
  split
  · exact h
  · next hne =>
    simp only [ensures_bind, ensures_ask, ensures_edit, ensures_note, ensures_pure]
    exact hfree m hm hne

theorem keeps_releaseInstance_of (hwf : ∀ {r}, P r → r.WellFormed)
    (hfree : ∀ {r : Repository ts} {id}, P r → r.NoTemplate id → P (r.free id)) (id : ObjectId) :
    Keeps P (releaseInstance id) := by
  refine ⟨fun r h => releaseInstance_ensures h fun m hm hne => ?_⟩
  exact Repository.freeAll_of_free hfree h fun x hx =>
    (hwf h).noTemplate_of_owned ((hwf h).noTemplate_of_modelOf hm hne) hx

section Contents

variable (hP : Closed P)

include hP

theorem keeps_setElement (id : ObjectId) (index : Nat) (value : Value) :
    Keeps P (setElement id index value) :=
  keeps_setElement_of_element (keeps_element hP.toGrowing hP.writeNew id index) fun _ h =>
    hP.writeElement id index value h

theorem keeps_releaseInstance (id : ObjectId) : Keeps P (releaseInstance id) :=
  keeps_releaseInstance_of hP.wellFormed hP.free id

end Contents

end Step

/-! ## Operations -/

open Step in
/-- An operation keeps what changes of declarations and additions keep, if definitions and removals
of members do, and the operation itself is none of those that write elsewhere. -/
theorem Operation.perform_keeps {P : Repository ts → Prop} (hdecl : Repository.Declarative P)
    (hgrow : Repository.Growing P)
    (hmember : ∀ template member, Keeps P (Step.defineMember template member))
    (hremove : ∀ template role, Keeps P (Step.removeMember template role))
    {operation : Operation κ}
    (hbase : ∀ template base, operation = .setBase template base → P (operation.perform r))
    (hupdate : ∀ m role value, operation = .updateInstances m role value →
      P (operation.perform r))
    (helement : ∀ id index, operation = .element id index → P (operation.perform r))
    (hset : ∀ id index value, operation = .setElement id index value → P (operation.perform r))
    (hrelease : ∀ id, operation = .releaseInstance id → P (operation.perform r)) (h : P r) :
    P (operation.perform r) := by
  cases operation with
  | newTemplate name kind => exact (keeps_newTemplate hdecl name kind).repo h
  | populateTemplate template entries =>
    exact (keeps_populateTemplate hdecl template entries (hmember template)).repo h
  | appendEntry template entry =>
    exact (keeps_appendEntry hdecl template entry (hmember template)).repo h
  | defineMember template member => exact (hmember template member).repo h
  | removeMember template role => exact (hremove template role).repo h
  | setBase template base => exact hbase template base rfl
  | setQualifiers template qualifiers =>
    exact (keeps_setQualifiers hdecl template qualifiers).repo h
  | setScope template scope => exact (keeps_setScope hdecl.putScope template scope).repo h
  | addToScope scope child => exact (keeps_addToScope hdecl scope child).repo h
  | newInstance template under owned => exact (keeps_newInstance hgrow template under owned).repo h
  | createRoleInstance datatype role qualifiers =>
    exact (keeps_createRoleInstance hgrow datatype role qualifiers).repo h
  | cloneValue value under owned => exact (keeps_cloneValue hgrow value under owned).repo h
  | updateInstances m role value => exact hupdate m role value rfl
  | newCollection content bound name owned =>
    exact (keeps_newCollection hgrow content bound name owned).repo h
  | copyCollection source under owned =>
    exact (keeps_copyCollection hgrow source under owned).repo h
  | element id index => exact helement id index rfl
  | setElement id index value => exact hset id index value rfl
  | releaseInstance id => exact hrelease id rfl

open Step in
/-- An operation keeps a closed property if definitions of members and removals of fields do, and
the operation itself is no change of a base and no direct update. -/
theorem Operation.perform_closed {P : Repository ts → Prop} (hP : Repository.Closed P)
    (hmember : ∀ template member, Keeps P (Step.defineMember template member))
    (hremove : ∀ m role, Keeps P (Step.updateInstances m role none)) {operation : Operation κ}
    (hbase : ∀ template base, operation = .setBase template base → P (operation.perform r))
    (hupdate : ∀ m role value, operation = .updateInstances m role value →
      P (operation.perform r)) (h : P r) : P (operation.perform r) := by
  refine operation.perform_keeps hP.toDeclarative hP.toGrowing hmember (fun template role =>
    keeps_removeMember hP.toDeclarative template role fun m => hremove m role) hbase hupdate
    ?_ ?_ ?_ h
  · rintro id index rfl
    exact (keeps_element hP.toGrowing hP.writeNew id index).repo h
  · rintro id index value rfl
    exact (keeps_setElement hP id index value).repo h
  · rintro id rfl
    exact (keeps_releaseInstance hP id).repo h

end Metamodel
