import Metamodel.Proofs.Lasting
import Metamodel.Proofs.Ownership

/-!
# Metamodel.Proofs.Tidy -- who holds what

In a repository that is only used through its datatypes, whatever a live object holds is live, is
no template, and is held by that object alone: `Tidy`. So a copy of a template is made of new
objects throughout, and a release of what nothing holds leaves nothing behind that refers to it.
The property is kept by additions, and by writing a value that nothing holds yet.
-/

namespace Metamodel.Repository

variable {κ : Type} {ts : TypeSystem κ} {r r' : Repository ts}

/-- No live object holds it. -/
def Unheld (r : Repository ts) (x : ObjectId) : Prop :=
  ∀ a o, r.object? a = some o → x ∉ o.held

theorem unheld_iff {x : ObjectId} :
    r.Unheld x ↔ ∀ o ∈ r.objects.toList, x ∉ o.elim [] Object.held := by
  have hlive : ∀ {o}, some o ∈ r.objects.toList ↔ ∃ a, r.object? a = some o := by
    intro o
    simp only [object?, Option.join_eq_some_iff, Array.mem_toList_iff, Array.mem_iff_getElem?]
    exact ⟨fun ⟨i, hi⟩ => ⟨⟨i⟩, hi⟩, fun ⟨a, ha⟩ => ⟨a.index, ha⟩⟩
  constructor
  · intro h o ho
    cases o with
    | none => simp
    | some p =>
      obtain ⟨a, ha⟩ := hlive.mp ho
      exact h a p ha
  · exact fun h a o ho => h (some o) (hlive.mpr ⟨a, ho⟩)

instance (r : Repository ts) (x : ObjectId) : Decidable (r.Unheld x) :=
  decidable_of_iff _ unheld_iff.symm

/-- What live objects hold is live, is no template, and is held by one of them alone. -/
structure Tidy (r : Repository ts) : Prop where
  denotes : ∀ {a o v}, r.object? a = some o → v ∈ o.values → r.Denotes v
  noTemplate : ∀ {a o x}, r.object? a = some o → x ∈ o.held → r.NoTemplate x
  held_once : ∀ {a b o p x}, r.object? a = some o → r.object? b = some p → x ∈ o.held →
    x ∈ p.held → a = b

theorem tidy_empty : (empty ts).Tidy where
  denotes h := by simp at h
  noTemplate h := by simp at h
  held_once h := by simp at h

/-- A value that an object may come to hold. -/
structure Fresh (r : Repository ts) (v : Value) : Prop where
  denotes : r.Denotes v
  unheld : ∀ {x}, v.object? = some x → r.Unheld x
  noTemplate : ∀ {x}, v.object? = some x → r.NoTemplate x

theorem fresh_of_leaf {v : Value} (hv : v.object? = none) : r.Fresh v where
  denotes := by cases v <;> simp_all [Value.object?, Denotes]
  unheld hx := by simp [hv] at hx
  noTemplate hx := by simp [hv] at hx

/-- What is loose may come to be held, where nothing holds what is still to be made. -/
theorem Loose.fresh {v : Value} (h : Loose r r' v) (hr : r.WellFormed) (hext : r.Extends r')
    (hheld : ∀ {a o x}, r.object? a = some o → x ∈ o.held → x.index < r.objects.size) :
    r'.Fresh v where
  denotes := h.denotes
  unheld := by
    intro x hx a o ho hmem
    rcases hext.old_or_new ho with hold | hge
    · exact Nat.not_le_of_lt (hheld hold hmem) (h.new x hx)
    · exact h.free ho hge hx hmem
  noTemplate hx := h.noTemplate hr hext hx

theorem Fresh.mapEntries {v : Value} (h : r.Fresh v) (m : ModelId) (f : List Entry → List Entry) :
    (r.mapEntries m f).Fresh v where
  denotes := h.denotes.mono fun _ _ ho => ho
  unheld hx := h.unheld hx
  noTemplate hx := by
    have hsteady : r.Steady (r.mapEntries m f) := steady_mapDatatype fun _ => ⟨rfl, rfl⟩
    exact hsteady.noTemplate (h.denotes.index_lt hx) (h.noTemplate hx)

/-! ## Writing one value -/

/-- `r'` is `r` with at most the one value written into the one object, and whatever else is new
holds nothing. -/
structure Writes (r : Repository ts) (id : ObjectId) (value : Option Value) (r' : Repository ts) :
    Prop where
  steady : r.Steady r'
  preserves : r.Preserves r'
  values : ∀ {a o'}, r'.object? a = some o' → o'.values = [] ∨
    ∃ o, r.object? a = some o ∧ ∀ v ∈ o'.values, v ∈ o.values ∨ a = id ∧ value = some v

/-- What is held afterwards was held by the same object, or is the value that is written. -/
theorem Writes.held {id : ObjectId} {value : Option Value} (h : r.Writes id value r')
    {a x : ObjectId} {o' : Object} (ho' : r'.object? a = some o') (hx : x ∈ o'.held) :
    (∃ o, r.object? a = some o ∧ x ∈ o.held) ∨
      a = id ∧ ∃ v, value = some v ∧ v.object? = some x := by
  obtain ⟨v, hv, hvx⟩ := Object.mem_held_iff.mp hx
  rcases h.values ho' with hnone | ⟨o, ho, hvalues⟩
  · simp [hnone] at hv
  · rcases hvalues v hv with hold | ⟨hid, hnew⟩
    · exact Or.inl ⟨o, ho, Object.mem_held_iff.mpr ⟨v, hold, hvx⟩⟩
    · exact Or.inr ⟨hid, v, hnew, hvx⟩

/-- No object changes, the next one included. -/
theorem writes_mapDatatype {k : ModelId} {f : Datatype κ → Datatype κ}
    (hf : ∀ d, (f d).kind = d.kind ∧ (f d).registry = d.registry ∧ (f d).template = d.template) :
    r.Writes r.nextObject none (r.mapDatatype k f) where
  steady := steady_mapDatatype fun d => ⟨(hf d).1, (hf d).2.2⟩
  preserves := preserves_mapDatatype fun d => (hf d).2.1
  values {_ o'} ho' := Or.inr ⟨o', ho', fun _ hv => Or.inl hv⟩

theorem writes_addTemplate (hr : r.WellFormed) (name : String) (kind : κ) :
    r.Writes r.nextObject none (r.addTemplate name kind) where
  steady := steady_addTemplate name kind
  preserves := preserves_addTemplate hr name kind
  values := by
    intro a o' ho'
    rw [object?_addTemplate] at ho'
    split at ho'
    · obtain rfl := Option.some.inj ho'
      exact Or.inl rfl
    · exact Or.inr ⟨o', ho', fun _ hv => Or.inl hv⟩

theorem writes_writeField (id : ObjectId) (role : String) (value : Option Value) :
    r.Writes id value (r.writeField id role value) where
  steady := steady_writeField id role value
  preserves := preserves_writeField id role value
  values := by
    intro a o' ho'
    cases o' with
    | collection m es =>
      exact Or.inr ⟨_, collection_writeField.mp ho', fun v hv => Or.inl hv⟩
    | composite m f' =>
      obtain ⟨f, ho, rfl⟩ := composite_writeField.mp ho'
      refine Or.inr ⟨_, ho, fun v hv => ?_⟩
      simp only [Object.values] at hv ⊢
      split at hv
      · next ha =>
        cases value with
        | none => exact Or.inl (Table.mem_values_erase hv)
        | some w =>
          rcases Table.mem_values_insert hv with rfl | hold
          · exact Or.inr ⟨ha, rfl⟩
          · exact Or.inl hold
      · exact Or.inl hv

theorem writes_writeElement (id : ObjectId) (index : Nat) (value : Value) :
    r.Writes id (some value) (r.writeElement id index value) where
  steady := steady_writeElement id index value
  preserves := preserves_writeElement id index value
  values := by
    intro a o' ho'
    cases o' with
    | composite m f =>
      exact Or.inr ⟨_, composite_writeElement.mp ho', fun v hv => Or.inl hv⟩
    | collection m es' =>
      obtain ⟨es, ho, rfl⟩ := collection_writeElement.mp ho'
      refine Or.inr ⟨_, ho, fun v hv => ?_⟩
      simp only [Object.values] at hv ⊢
      split at hv
      · next ha =>
        rcases Table.mem_values_insert hv with rfl | hold
        · exact Or.inr ⟨ha, rfl⟩
        · exact Or.inl hold
      · exact Or.inl hv

namespace Tidy

theorem held_lt (h : r.Tidy) {a x : ObjectId} {o : Object} (ho : r.object? a = some o)
    (hx : x ∈ o.held) : x.index < r.objects.size := by
  obtain ⟨v, hv, hvx⟩ := Object.mem_held_iff.mp hx
  exact (h.denotes ho hv).index_lt hvx

/-- What is loose may come to be held. -/
theorem fresh (h : r.Tidy) (hr : r.WellFormed) (hext : r.Extends r') {v : Value}
    (hv : Loose r r' v) : r'.Fresh v :=
  hv.fresh hr hext h.held_lt

/-- Additions keep a repository tidy. -/
theorem grew (h : r.Tidy) (hr : r.WellFormed) (hext : r.Extends r') : r'.Tidy where
  denotes := by
    intro a o v ho hv
    rcases hext.old_or_new ho with hold | hge
    · exact hext.denotes (h.denotes hold hv)
    · exact (hext.held_new ho hge hv).2
  noTemplate := by
    intro a o x ho hx
    rcases hext.old_or_new ho with hold | hge
    · exact hext.steady.noTemplate (h.held_lt hold hx) (h.noTemplate hold hx)
    · obtain ⟨v, hv, hvx⟩ := Object.mem_held_iff.mp hx
      exact hext.noTemplate hr ((hext.held_new ho hge hv).1 x hvx)
  held_once := by
    intro a b o p x ha hb hxo hxp
    -- A new object holds nothing that was there before.
    rcases hext.old_or_new ha with haold | hage
    · rcases hext.old_or_new hb with hbold | hbge
      · exact h.held_once haold hbold hxo hxp
      · exact (hext.not_mem_held hb hbge (h.held_lt haold hxo) hxp).elim
    · rcases hext.old_or_new hb with hbold | hbge
      · exact (hext.not_mem_held ha hage (h.held_lt hbold hxp) hxo).elim
      · exact hext.held_once ha hb hage hbge hxo hxp

/-- Writing one fresh value into one object, at most, keeps a repository tidy. -/
theorem write (h : r.Tidy) {id : ObjectId} {value : Option Value} (hwrite : r.Writes id value r')
    (hvalue : ∀ v, value = some v → r.Fresh v) : r'.Tidy := by
  refine ⟨?_, ?_, ?_⟩
  · intro a o' v ho' hv
    rcases hwrite.values ho' with hnone | ⟨o, ho, hvalues⟩
    · simp [hnone] at hv
    · rcases hvalues v hv with hold | ⟨-, hnew⟩
      · exact hwrite.preserves.denotes (h.denotes ho hold)
      · exact hwrite.preserves.denotes (hvalue v hnew).denotes
  · intro a o' x ho' hx
    rcases hwrite.held ho' hx with ⟨o, ho, hx⟩ | ⟨-, v, hv, hvx⟩
    · exact hwrite.steady.noTemplate (h.held_lt ho hx) (h.noTemplate ho hx)
    · exact hwrite.steady.noTemplate ((hvalue v hv).denotes.index_lt hvx)
        ((hvalue v hv).noTemplate hvx)
  · intro a b o' p' x ha hb hxo hxp
    rcases hwrite.held ha hxo with ⟨o, ho, hxo⟩ | ⟨rfl, v, hv, hvx⟩
    · rcases hwrite.held hb hxp with ⟨p, hp, hxp⟩ | ⟨-, v, hv, hvx⟩
      · exact h.held_once ho hp hxo hxp
      · exact ((hvalue v hv).unheld hvx a o ho hxo).elim
    · rcases hwrite.held hb hxp with ⟨p, hp, hxp⟩ | ⟨rfl, -⟩
      · exact ((hvalue v hv).unheld hvx b p hp hxp).elim
      · rfl

theorem mapDatatype (h : r.Tidy) {k : ModelId} {f : Datatype κ → Datatype κ}
    (hf : ∀ d, (f d).kind = d.kind ∧ (f d).registry = d.registry ∧ (f d).template = d.template) :
    (r.mapDatatype k f).Tidy :=
  h.write (writes_mapDatatype hf) (by simp)

theorem addTemplate (h : r.Tidy) (hr : r.WellFormed) (name : String) (kind : κ) :
    (r.addTemplate name kind).Tidy :=
  h.write (writes_addTemplate hr name kind) (by simp)

theorem writeField (h : r.Tidy) (id : ObjectId) (role : String) {value : Option Value}
    (hvalue : ∀ v, value = some v → r.Fresh v) : (r.writeField id role value).Tidy :=
  h.write (writes_writeField id role value) hvalue

theorem writeElement (h : r.Tidy) (id : ObjectId) (index : Nat) {value : Value}
    (hvalue : r.Fresh value) : (r.writeElement id index value).Tidy :=
  h.write (writes_writeElement id index value) (by simpa using hvalue)

/-- Freeing objects that nothing else holds keeps a repository tidy. -/
theorem freeAll (h : r.Tidy) {ids : List ObjectId}
    (hids : ∀ {a o x}, r.object? a = some o → a ∉ ids → x ∈ o.held → x ∉ ids) :
    (r.freeAll ids).Tidy := by
  refine ⟨?_, ?_, ?_⟩
  · intro a o v ho hv
    obtain ⟨ha, ho⟩ := object?_freeAll_eq_some.mp ho
    refine (h.denotes ho hv).lasts fun x hx => lasts_freeAll ?_
    exact hids ho ha (Object.mem_held_iff.mpr ⟨v, hv, hx⟩)
  · intro a o x ho hx
    obtain ⟨-, ho⟩ := object?_freeAll_eq_some.mp ho
    exact (steady_freeAll ids).noTemplate (h.held_lt ho hx) (h.noTemplate ho hx)
  · intro a b o p x ha hb hxo hxp
    obtain ⟨-, ha⟩ := object?_freeAll_eq_some.mp ha
    obtain ⟨-, hb⟩ := object?_freeAll_eq_some.mp hb
    exact h.held_once ha hb hxo hxp

end Tidy

/-! ## What goes with a released object -/

/-- What goes with an object that nothing holds is held by nothing that stays. -/
theorem Tidy.not_mem_owned (h : r.Tidy) {root : ObjectId} (hroot : r.Unheld root) {a x : ObjectId}
    {o : Object} (ho : r.object? a = some o) (ha : a ∉ r.owned root) (hx : x ∈ o.held) :
    x ∉ r.owned root := by
  intro hmem
  obtain ⟨hlive, hgoes⟩ := mem_owned_iff.mp hmem
  cases hgoes with
  | root => exact hroot a o ho hx
  | held hb hp hxp _ _ =>
    rw [h.held_once hp ho hxp hx] at hb
    exact ha (mem_owned_iff.mpr ⟨hlive, hb⟩)

theorem Tidy.release (h : r.Tidy) {root : ObjectId} (hroot : r.Unheld root) :
    (r.freeAll (r.owned root)).Tidy :=
  h.freeAll fun ho ha hx => h.not_mem_owned hroot ho ha hx

end Metamodel.Repository
