import Metamodel.Proofs.Faithful
import Metamodel.Proofs.Making
import Metamodel.Proofs.Representation

/-!
# Metamodel.Proofs.Guarding -- what fields lead to is held once

`r.Guards S` says that whatever the fields of `S` lead to, at any depth, is live and is held by
nothing besides the object whose field refers to it. Other objects may hold what is gone, and hold
each other in circles. A repository is `Guarded` if its canonical templates are guarded in this way.
That is kept by additions, by values written into fields that nothing holds yet, by elements that
are not installed in a template, and by the release of anything that is neither a template nor
installed in one.
-/

namespace Metamodel

variable {κ : Type} {ts : TypeSystem κ} {r r' : Repository ts}

namespace Repository

variable {S S' : ObjectId → Prop} {a x : ObjectId} {v : Value}

/-! ## Where fields lead to -/

/-- The object is the canonical template of a datatype. -/
def Canonical (r : Repository ts) (id : ObjectId) : Prop :=
  ∃ m d, r.model? m = some (.datatype d) ∧ d.template = id

/-- A live composite has the value in one of its fields. -/
def HasField (r : Repository ts) (a : ObjectId) (v : Value) : Prop :=
  ∃ m f, r.object? a = some (.composite m f) ∧ v ∈ f.values

/-- The object is one of `S`, or fields lead from one of them to it. -/
inductive Under (r : Repository ts) (S : ObjectId → Prop) : ObjectId → Prop where
  | root {a : ObjectId} : S a → Under r S a
  | field {a x : ObjectId} {v : Value} :
      Under r S a → r.HasField a v → v.object? = some x → Under r S x

/-- A field of one of `S`, or of what fields lead to from there, refers to the object. -/
def InstalledIn (r : Repository ts) (S : ObjectId → Prop) (x : ObjectId) : Prop :=
  ∃ a v, r.Under S a ∧ r.HasField a v ∧ v.object? = some x

/-- A field of a canonical template refers to the object, directly or at some depth. -/
def Installed (r : Repository ts) : ObjectId → Prop :=
  r.InstalledIn r.Canonical

theorem HasField.held (h : r.HasField a v) (hx : v.object? = some x) :
    ∃ o, r.object? a = some o ∧ x ∈ o.held := by
  obtain ⟨m, f, ho, hv⟩ := h
  exact ⟨_, ho, Object.mem_held_iff.mpr ⟨v, hv, hx⟩⟩

theorem hasField_of_field? {role : String} (h : r.field? a role = some v) : r.HasField a v := by
  obtain ⟨m, f, ho, hv⟩ := field?_eq_some_iff.mp h
  exact ⟨m, f, ho, Table.mem_values_of_get? hv⟩

/-- Elements are no fields. -/
theorem hasField_of_writeElement {id : ObjectId} {index : Nat} {w : Value}
    (h : (r.writeElement id index w).HasField a v) : r.HasField a v := by
  obtain ⟨m, f, ho, hv⟩ := h
  exact ⟨m, f, composite_writeElement.mp ho, hv⟩

theorem canonical_of_canonicalModel {m : ModelId} (h : r.canonicalModel a = .ok m) :
    r.Canonical a := by
  obtain ⟨-, d, hd, ht⟩ := canonicalModel_eq_ok_iff.mp h
  exact ⟨m, d, hd, ht⟩

theorem not_installedIn_of_unheld (h : r.Unheld x) : ¬ r.InstalledIn S x := by
  rintro ⟨a, v, -, hv, hx⟩
  obtain ⟨o, ho, hmem⟩ := hv.held hx
  exact h a o ho hmem

/-- Afterwards fields lead to what they led to before, if each one was there or leads to `S`. -/
theorem Under.of_fields (h : r'.Under S' a) (hv : r'.HasField a v)
    (hroot : ∀ {b w}, S' b → r'.HasField b w → S b)
    (hfield : ∀ {b w}, r'.HasField b w → r.HasField b w ∨ ∀ x, w.object? = some x → S x) :
    r.Under S a := by
  induction h generalizing v with
  | root ha => exact .root (hroot ha hv)
  | field _ hw hx ih =>
    rcases hfield hw with hold | hnew
    · exact .field (ih hw) hold hx
    · exact .root (hnew _ hx)

theorem Steady.canonical (h : r.Steady r') (ha : r'.Canonical a)
    (hlt : a.index < r.objects.size) : r.Canonical a := by
  obtain ⟨m, d', hd', rfl⟩ := ha
  obtain ⟨d, hd, ht⟩ := h.template hd' hlt
  exact ⟨m, d, hd, ht⟩

theorem Extends.canonical (hext : r.Extends r') (h : r'.Canonical a) : r.Canonical a := by
  obtain ⟨m, d', hd', rfl⟩ := h
  obtain ⟨d, g, hd, rfl⟩ := hext.datatype_of hd'
  exact ⟨m, d, hd, rfl⟩

/-- After additions fields lead to what they led to before, and to new objects. -/
theorem Extends.under (hext : r.Extends r') (h : r'.Under S' a) (hv : r'.HasField a v)
    (hroot : ∀ b, S' b → S b ∨ r.objects.size ≤ b.index) :
    r.Under S a ∧ r.HasField a v ∨ r.objects.size ≤ a.index := by
  have hold : ∀ {b w}, r'.HasField b w → r.HasField b w ∨ r.objects.size ≤ b.index := by
    rintro b w ⟨m, f, ho, hw⟩
    exact (hext.old_or_new ho).imp_left fun ho' => ⟨m, f, ho', hw⟩
  induction h generalizing v with
  | root ha =>
    rcases hroot _ ha with hS | hnew
    · exact (hold hv).imp_left fun hv' => ⟨.root hS, hv'⟩
    · exact Or.inr hnew
  | field _ hw hx ih =>
    rcases ih hw with ⟨hunder, hw'⟩ | hnew
    · exact (hold hv).imp_left fun hv' => ⟨.field hunder hw' hx, hv'⟩
    · obtain ⟨m, f, ho, hmem⟩ := hw
      exact Or.inr ((hext.held_new ho hnew hmem).1 _ hx)

/-! ## Values that belong to a template -/

/-- The value is a leaf, a live composite, or a live collection with its origin in a template. -/
def Belongs (r : Repository ts) : Value → Prop
  | .composite id => ∃ m f, r.object? id = some (.composite m f)
  | .collection id => ∃ s, r.shape id = .ok s ∧ s.origin = .template
  | _ => True

theorem Belongs.denotes (h : r.Belongs v) : r.Denotes v := by
  cases v with
  | accessor path => trivial
  | scalar s => trivial
  | composite x => exact h
  | collection x =>
    obtain ⟨s, hs, -⟩ := h
    obtain ⟨m, es, ho, -⟩ := shape_eq_ok_iff.mp hs
    exact ⟨m, es, ho⟩

theorem Belongs.lasts (h : r.Belongs v) (hlasts : ∀ x, v.object? = some x → r.Lasts r' x) :
    r'.Belongs v := by
  cases v with
  | accessor path => trivial
  | scalar s => trivial
  | composite x =>
    obtain ⟨m, f, ho⟩ := h
    obtain ⟨f', ho'⟩ := (hlasts x rfl).composite ho
    exact ⟨m, f', ho'⟩
  | collection x =>
    obtain ⟨s, hs, horigin⟩ := h
    exact ⟨s, (hlasts x rfl).shape hs, horigin⟩

theorem Belongs.preserves (h : r.Belongs v) (hr' : r.Preserves r') : r'.Belongs v :=
  h.lasts fun x hx => by
    obtain ⟨o, ho⟩ := h.denotes.object? hx
    exact hr' x o ho

theorem belongs_of_leaf (hv : v.object? = none) : r.Belongs v := by
  cases v <;> simp_all [Value.object?, Belongs]

/-- What has been made for a template belongs to it. -/
theorem SymbolicFrom.belongs {n : Nat} (h : r.SymbolicFrom n) (hr : r.WellFormed)
    (hv : r.Denotes v) (hnew : ∀ x, v.object? = some x → n ≤ x.index) : r.Belongs v := by
  cases v with
  | accessor path => trivial
  | scalar s => trivial
  | composite x => exact hv
  | collection x =>
    obtain ⟨m, es, ho⟩ := hv
    obtain ⟨s, hs⟩ := hr.shape_of_collection ho
    exact ⟨s, hs, h (hnew x rfl) hs⟩

/-! ## What is installed is held once -/

/-- Whatever the fields of `S` lead to is live and belongs to a template, is no template, and is
held by nothing besides the one object whose field refers to it. -/
structure Guards (r : Repository ts) (S : ObjectId → Prop) : Prop where
  belongs : ∀ {a v}, r.Under S a → r.HasField a v → r.Belongs v
  noTemplate : ∀ {a v x}, r.Under S a → r.HasField a v → v.object? = some x → r.NoTemplate x
  sole : ∀ {a b v x o}, r.Under S a → r.HasField a v → v.object? = some x →
    r.object? b = some o → x ∈ o.held → b = a

namespace Guards

theorem denotes (h : r.Guards S) (ha : r.Under S a) (hv : r.HasField a v) : r.Denotes v :=
  (h.belongs ha hv).denotes

theorem mono (h : r.Guards S) (hS : ∀ b, S' b → S b) : r.Guards S' := by
  have hunder : ∀ {b w}, r.Under S' b → r.HasField b w → r.Under S b := fun hb hw =>
    hb.of_fields hw (fun hb' _ => hS _ hb') fun hw' => Or.inl hw'
  exact ⟨fun ha hv => h.belongs (hunder ha hv) hv, fun ha hv => h.noTemplate (hunder ha hv) hv,
    fun ha hv => h.sole (hunder ha hv) hv⟩

/-- Additions may become roots themselves, since nothing that was there refers to them. -/
theorem grew (h : r.Guards S) (hr : r.WellFormed) (hext : r.Extends r')
    (hheld : ∀ {b o y}, r.object? b = some o → y ∈ o.held → y.index < r.objects.size)
    (hroot : ∀ b, S' b → S b ∨ r.objects.size ≤ b.index)
    (hnew : ∀ {b w}, r'.Under S' b → r.objects.size ≤ b.index → r'.HasField b w → r'.Belongs w) :
    r'.Guards S' where
  belongs := by
    intro a v ha hv
    rcases hext.under ha hv hroot with ⟨ha', hv'⟩ | hge
    · exact (h.belongs ha' hv').preserves hext.preserves
    · exact hnew ha hge hv
  noTemplate := by
    intro a v x ha hv hx
    rcases hext.under ha hv hroot with ⟨ha', hv'⟩ | hge'
    · exact hext.steady.noTemplate ((h.denotes ha' hv').index_lt hx) (h.noTemplate ha' hv' hx)
    · obtain ⟨m, f, ho, hmem⟩ := hv
      exact hext.noTemplate hr ((hext.held_new ho hge' hmem).1 x hx)
  sole := by
    intro a b v x o ha hv hx hb hxo
    obtain ⟨p, hp, hxp⟩ := hv.held hx
    -- What is new and what was there before hold nothing of each other.
    rcases hext.under ha hv hroot with ⟨ha', hv'⟩ | hge'
    · rcases hext.old_or_new hb with hold | hge
      · exact h.sole ha' hv' hx hold hxo
      · exact (hext.not_mem_held hb hge ((h.denotes ha' hv').index_lt hx) hxo).elim
    · rcases hext.old_or_new hb with hold | hge
      · exact (hext.not_mem_held hp hge' (hheld hold hxo) hxp).elim
      · exact hext.held_once hb hp hge hge' hxo hxp

/-- A value may be written into a field if it is fresh and belongs to `S`, and into an element if
it is not installed. -/
theorem write (h : r.Guards S) {id : ObjectId} {value : Option Value}
    (hwrite : r.Writes id value r') (hroot : ∀ {b w}, S' b → r'.HasField b w → S b)
    (hfield : ∀ {b w}, r'.HasField b w → r.HasField b w ∨
      b = id ∧ (r.Fresh w ∧ r.Belongs w) ∧ ∀ x, w.object? = some x → S x)
    (hvalue : ∀ {w x}, value = some w → w.object? = some x → ¬ r.InstalledIn S x) :
    r'.Guards S' := by
  have hunder : ∀ {b w}, r'.Under S' b → r'.HasField b w → r.Under S b := fun hb hw =>
    hb.of_fields hw hroot fun hw' => (hfield hw').imp_right fun h' => h'.2.2
  refine ⟨fun ha hv => ?_, fun ha hv hx => ?_, fun {a b v x o} ha hv hx hb hxo => ?_⟩
  · rcases hfield hv with hold | ⟨-, ⟨-, hbelongs⟩, -⟩
    · exact (h.belongs (hunder ha hv) hold).preserves hwrite.preserves
    · exact hbelongs.preserves hwrite.preserves
  · rcases hfield hv with hold | ⟨-, ⟨hfresh, -⟩, -⟩
    · exact hwrite.steady.noTemplate ((h.denotes (hunder ha hv) hold).index_lt hx)
        (h.noTemplate (hunder ha hv) hold hx)
    · exact hwrite.steady.noTemplate (hfresh.denotes.index_lt hx) (hfresh.noTemplate hx)
  · -- The value that is written is the only one that another object may have come to hold.
    rcases hwrite.held hb hxo with ⟨p, hp, hxp⟩ | ⟨rfl, w, hw, hwx⟩
    · rcases hfield hv with hold | ⟨-, ⟨hfresh, -⟩, -⟩
      · exact h.sole (hunder ha hv) hold hx hp hxp
      · exact (hfresh.unheld hx b p hp hxp).elim
    · rcases hfield hv with hold | ⟨rfl, -⟩
      · exact (hvalue hw hwx ⟨a, v, hunder ha hv, hold, hx⟩).elim
      · rfl

/-- What is not installed may be freed. -/
theorem freeAll (h : r.Guards S) {ids : List ObjectId}
    (hroot : ∀ {b o}, S' b → r.object? b = some o → S b)
    (hids : ∀ y, r.InstalledIn S y → y ∉ ids) : (r.freeAll ids).Guards S' := by
  have hold : ∀ {b w}, (r.freeAll ids).HasField b w → r.HasField b w := by
    rintro b w ⟨m, f, ho, hw⟩
    exact ⟨m, f, (object?_freeAll_eq_some.mp ho).2, hw⟩
  have hunder : ∀ {b w}, (r.freeAll ids).Under S' b → (r.freeAll ids).HasField b w →
      r.Under S b := by
    refine fun hb hw => hb.of_fields hw (fun hb' hw' => ?_) fun hw' => Or.inl (hold hw')
    obtain ⟨m, f, ho, -⟩ := hold hw'
    exact hroot hb' ho
  refine ⟨fun {a v} ha hv => ?_, fun ha hv hx => ?_, fun ha hv hx hb => ?_⟩
  · refine (h.belongs (hunder ha hv) (hold hv)).lasts fun x hx => lasts_freeAll ?_
    exact hids x ⟨a, v, hunder ha hv, hold hv, hx⟩
  · exact (steady_freeAll ids).noTemplate ((h.denotes (hunder ha hv) (hold hv)).index_lt hx)
      (h.noTemplate (hunder ha hv) (hold hv) hx)
  · exact h.sole (hunder ha hv) (hold hv) hx (object?_freeAll_eq_some.mp hb).2

end Guards

/-! ## The invariant -/

/-- The repository is well formed, nothing holds what is still to be made, and what is installed in
templates is held once. -/
structure Guarded (r : Repository ts) : Prop where
  wellFormed : r.WellFormed
  held_lt : ∀ {b o y}, r.object? b = some o → y ∈ o.held → y.index < r.objects.size
  guards : r.Guards r.Canonical

theorem guarded_empty : (empty ts).Guarded where
  wellFormed := wellFormed_empty
  held_lt h := by simp at h
  guards := by
    have hnone : ∀ {b w}, ¬ (empty ts).HasField b w := by
      rintro b w ⟨m, f, ho, -⟩
      simp at ho
    exact ⟨fun _ hv => (hnone hv).elim, fun _ hv => (hnone hv).elim, fun _ hv => (hnone hv).elim⟩

/-! ## What may become a field -/

/-- A value that a field may get, or none: nothing holds it, and what it leads to is held once. -/
structure Installable (r : Repository ts) (value : Option Value) : Prop where
  fresh : ∀ {v}, value = some v → r.Fresh v
  belongs : ∀ {v}, value = some v → r.Belongs v
  guards : r.Guards fun b => r.Canonical b ∨ value.bind Value.object? = some b

/-- An object with a field was live before, and had the value then, unless it has been written. -/
theorem Writes.field {id : ObjectId} {value : Option Value} (h : r.Writes id value r')
    (hv : r'.HasField a v) :
    ∃ o, r.object? a = some o ∧ (v ∈ o.values ∨ a = id ∧ value = some v) := by
  obtain ⟨n, f, ho, hmem⟩ := hv
  rcases h.values ho with hnone | ⟨o, ho', hvalues⟩
  · rw [show f.values = [] from hnone] at hmem
    simp at hmem
  · exact ⟨o, ho', hvalues v hmem⟩

/-- A canonical template that has a field was one before. -/
theorem Writes.canonical {id : ObjectId} {value : Option Value} (h : r.Writes id value r')
    (ha : r'.Canonical a) (hv : r'.HasField a v) : r.Canonical a := by
  obtain ⟨o, ho, -⟩ := h.field hv
  exact h.steady.canonical ha (index_lt_of_object? ho)

theorem Installable.mapEntries {value : Option Value} (h : r.Installable value) (m : ModelId)
    (f : List Entry → List Entry) : (r.mapEntries m f).Installable value where
  fresh hv := (h.fresh hv).mapEntries m f
  belongs hv := (h.belongs hv).preserves (preserves_mapDatatype fun _ => rfl)
  guards := by
    have hwrite : r.Writes r.nextObject none (r.mapEntries m f) :=
      writes_mapDatatype fun _ => ⟨rfl, rfl, rfl⟩
    refine h.guards.write hwrite ?_ (fun hw => Or.inl hw) (by simp)
    exact fun hb hw => hb.imp_left fun hc => hwrite.canonical hc hw

/-! ## What may become an element -/

/-- The object is there, or has been, and is not installed. -/
structure Outside (r : Repository ts) (x : ObjectId) : Prop where
  index_lt : x.index < r.objects.size
  not_installed : ¬ r.Installed x

theorem Outside.grew (h : r.Outside x) (hext : r.Extends r') : r'.Outside x where
  index_lt := Nat.lt_of_lt_of_le h.index_lt hext.objects_le
  not_installed := by
    rintro ⟨a, v, ha, hv, hx⟩
    rcases hext.under ha hv fun b hb => Or.inl (hext.canonical hb) with ⟨ha', hv'⟩ | hnew
    · exact h.not_installed ⟨a, v, ha', hv', hx⟩
    · obtain ⟨m, f, ho, hmem⟩ := hv
      exact Nat.not_le_of_lt h.index_lt ((hext.held_new ho hnew hmem).1 x hx)

theorem Outside.writeElement (h : r.Outside x) (id : ObjectId) (index : Nat) (v : Value) :
    (r.writeElement id index v).Outside x where
  index_lt := by simpa using h.index_lt
  not_installed := by
    rintro ⟨a, w, ha, hw, hx⟩
    have hunder := ha.of_fields hw (writes_writeElement id index v).canonical fun hw' =>
      Or.inl (hasField_of_writeElement hw')
    exact h.not_installed ⟨a, w, hunder, hasField_of_writeElement hw, hx⟩

namespace Guarded

/-! ## Changes -/

/-- A leaf may be installed, and so may nothing. -/
theorem installable_of_leaf (h : r.Guarded) {value : Option Value}
    (hvalue : value.bind Value.object? = none) : r.Installable value where
  fresh hv := fresh_of_leaf (by simpa [hv] using hvalue)
  belongs hv := belongs_of_leaf (by simpa [hv] using hvalue)
  guards := h.guards.mono fun b hb => hb.elim id fun hsome => by simp [hvalue] at hsome

/-- What has been made for a template since may be installed. -/
theorem installable (h : r.Guarded) (hgrew : Step.Grew r r') {v : Value} (hv : Loose r r' v)
    (hsymbolic : r'.SymbolicFrom r.objects.size) : r'.Installable (some v) where
  fresh hw := Option.some.inj hw ▸ hv.fresh h.wellFormed hgrew.2 h.held_lt
  belongs hw := Option.some.inj hw ▸ hsymbolic.belongs hgrew.1 hv.denotes hv.new
  guards := by
    refine h.guards.grew h.wellFormed hgrew.2 h.held_lt
      (fun b hb => hb.imp hgrew.2.canonical (hv.new b)) ?_
    rintro b w - hge ⟨m, f, ho, hw⟩
    obtain ⟨hnew, hdenotes⟩ := hgrew.2.held_new ho hge hw
    exact hsymbolic.belongs hgrew.1 hdenotes hnew

/-- Additions are not installed by themselves. -/
theorem under_lt (h : r.Guarded) (hext : r.Extends r') (ha : r'.Under r'.Canonical a) :
    a.index < r.objects.size := by
  induction ha with
  | root hcanonical =>
    obtain ⟨m, d, hd, rfl⟩ := hext.canonical hcanonical
    exact h.wellFormed.template_lt hd
  | field hb hw hx ih =>
    rcases hext.under hb hw fun b hb => Or.inl (hext.canonical hb) with ⟨hb', hw'⟩ | hge
    · exact (h.guards.denotes hb' hw').index_lt hx
    · exact (Nat.not_le_of_lt ih hge).elim

theorem grew (h : r.Guarded) (hgrew : Step.Grew r r') : r'.Guarded where
  wellFormed := hgrew.1
  held_lt := by
    intro b o y hb hy
    rcases hgrew.2.old_or_new hb with hold | hge
    · exact Nat.lt_of_lt_of_le (h.held_lt hold hy) hgrew.2.objects_le
    · obtain ⟨v, hv, hvy⟩ := Object.mem_held_iff.mp hy
      exact (hgrew.2.held_new hb hge hv).2.index_lt hvy
  guards := by
    refine h.guards.grew h.wellFormed hgrew.2 h.held_lt
      (fun b hb => Or.inl (hgrew.2.canonical hb)) fun {b w} hb hge hw => ?_
    exact (Nat.not_le_of_lt (h.under_lt hgrew.2 hb) hge).elim

/-- Writing one value keeps what is installed. -/
theorem write (h : r.Guarded) (hr' : r'.WellFormed) {id : ObjectId} {value : Option Value}
    (hwrite : r.Writes id value r')
    (hlt : ∀ {w y}, value = some w → w.object? = some y → y.index < r.objects.size)
    (hguards : r'.Guards r'.Canonical) : r'.Guarded := by
  refine ⟨hr', fun {b o y} hb hy => Nat.lt_of_lt_of_le ?_ hwrite.steady.objects_le, hguards⟩
  rcases hwrite.held hb hy with ⟨p, hp, hy⟩ | ⟨-, w, hw, hwy⟩
  · exact h.held_lt hp hy
  · exact hlt hw hwy

/-- Where nothing is written, what is installed stays. -/
theorem unwritten (h : r.Guarded) (hr' : r'.WellFormed) {id : ObjectId}
    (hwrite : r.Writes id none r')
    (hfield : ∀ {b w}, r'.HasField b w → r.HasField b w) : r'.Guarded :=
  h.write hr' hwrite (by simp) <|
    h.guards.write hwrite hwrite.canonical (fun hw => Or.inl (hfield hw)) (by simp)

theorem mapDatatype (h : r.Guarded) {k : ModelId} {f : Datatype κ → Datatype κ}
    (hr' : (r.mapDatatype k f).WellFormed)
    (hf : ∀ d, (f d).kind = d.kind ∧ (f d).registry = d.registry ∧ (f d).template = d.template) :
    (r.mapDatatype k f).Guarded :=
  h.unwritten hr' (writes_mapDatatype hf) fun hw => hw

theorem mapEntries (h : r.Guarded) (m : ModelId) (f : List Entry → List Entry) :
    (r.mapEntries m f).Guarded :=
  h.mapDatatype (h.wellFormed.mapEntries m f) fun _ => ⟨rfl, rfl, rfl⟩

theorem addTemplate (h : r.Guarded) (name : String) (kind : κ) :
    (r.addTemplate name kind).Guarded := by
  refine h.unwritten (h.wellFormed.addTemplate name kind)
    (writes_addTemplate h.wellFormed name kind) ?_
  rintro b w ⟨m, f, ho, hw⟩
  rw [object?_addTemplate] at ho
  split at ho
  · obtain ⟨-, rfl⟩ := Object.composite.inj (Option.some.inj ho)
    simp [Table.values, Table.empty] at hw
  · exact ⟨m, f, ho, hw⟩

theorem writeField (h : r.Guarded) (id : ObjectId) (role : String) {value : Option Value}
    (hvalue : r.Installable value) : (r.writeField id role value).Guarded := by
  have hwrite := writes_writeField (r := r) id role value
  refine h.write (h.wellFormed.writeField id role value) hwrite
    (fun hw hy => (hvalue.fresh hw).denotes.index_lt hy) ?_
  refine hvalue.guards.write hwrite (fun hb hw => Or.inl (hwrite.canonical hb hw)) ?_
    fun hw hy => not_installedIn_of_unheld ((hvalue.fresh hw).unheld hy)
  intro b w hw
  obtain ⟨o, ho, hor⟩ := hwrite.field hw
  refine hor.imp (fun hold => ?_) fun ⟨hid, hnew⟩ =>
    ⟨hid, ⟨hvalue.fresh hnew, hvalue.belongs hnew⟩, fun y hy => Or.inr (by simp [hnew, hy])⟩
  -- What is a composite afterwards was one before.
  obtain ⟨m, f', ho', -⟩ := hw
  obtain ⟨f, hf, -⟩ := composite_writeField.mp ho'
  obtain rfl := Option.some.inj (hf.symm.trans ho)
  exact ⟨m, f, ho, hold⟩

theorem writeElement (h : r.Guarded) (id : ObjectId) (index : Nat) {v : Value}
    (hv : ∀ y, v.object? = some y → r.Outside y) : (r.writeElement id index v).Guarded := by
  have hwrite := writes_writeElement (r := r) id index v
  refine h.write (h.wellFormed.writeElement id index v) hwrite
    (fun hw hy => (hv _ (Option.some.inj hw ▸ hy)).index_lt) ?_
  exact h.guards.write hwrite hwrite.canonical (fun hw => Or.inl (hasField_of_writeElement hw))
    fun hw hy => (hv _ (Option.some.inj hw ▸ hy)).not_installed

/-- What has been made since may become an element. -/
theorem writeNew (h : r.Guarded) (hgrew : Step.Grew r r') {v : Value} (hv : Loose r r' v)
    (id : ObjectId) (index : Nat) : (r'.writeElement id index v).Guarded := by
  refine (h.grew hgrew).writeElement id index fun y hy => ⟨hv.denotes.index_lt hy, ?_⟩
  exact not_installedIn_of_unheld ((hv.fresh h.wellFormed hgrew.2 h.held_lt).unheld hy)

/-! ## Releases -/

/-- A release of what is neither a template nor installed passes by what is installed. -/
theorem not_under_of_owned (h : r.Guarded) {root : ObjectId} (hroot : r.NoTemplate root)
    (hno : ¬ r.Installed root) : ∀ y ∈ r.owned root, ¬ r.Under r.Canonical y := by
  -- Templates are passed by, so that fields lead to whatever else is under them.
  have hinstalled : ∀ {y}, r.isSpared root y = false → r.Under r.Canonical y → r.Installed y := by
    intro y hspared hunder
    cases hunder with
    | root hcanonical =>
      obtain ⟨m, d, hd, ht⟩ := hcanonical
      exact (h.wellFormed.noTemplate_of_not_spared hroot hspared m d hd ht).elim
    | field ha hv hx => exact ⟨_, _, ha, hv, hx⟩
  apply ownedFrom_induction
  case hheld =>
    intro b o y hb ho hmem hspared hunder
    -- Only the one whose field it is holds it, and that does not go.
    obtain ⟨a, v, ha, hv, hx⟩ := hinstalled hspared hunder
    obtain rfl := h.guards.sole ha hv hx ho hmem
    exact hb ha
  case hfound => simp
  case hstack =>
    intro y hy hspared hunder
    obtain rfl := List.mem_singleton.mp hy
    exact hno (hinstalled hspared hunder)

theorem release (h : r.Guarded) {root : ObjectId} (hroot : r.NoTemplate root)
    (hno : ¬ r.Installed root) : (r.freeAll (r.owned root)).Guarded where
  wellFormed := (freeAll_of_free sound_robust.free h.wellFormed.sound fun _ hx =>
    h.wellFormed.noTemplate_of_owned hroot hx).wellFormed
  held_lt := by
    intro b o y hb hy
    exact Nat.lt_of_lt_of_le (h.held_lt (object?_freeAll_eq_some.mp hb).2 hy)
      (steady_freeAll _).objects_le
  guards := by
    refine h.guards.freeAll
      (fun hb ho => (steady_freeAll _).canonical hb (index_lt_of_object? ho)) ?_
    rintro y ⟨a, v, ha, hv, hx⟩ hy
    exact h.not_under_of_owned hroot hno y hy (.field ha hv hx)

/-! ## What follows -/

theorem isLive_of_installed (h : r.Guarded) (hx : r.Installed x) : r.isLive x = true := by
  obtain ⟨a, v, ha, hv, hvx⟩ := hx
  exact isLive_iff.mpr ((h.guards.denotes ha hv).object? hvx)

/-- A collection that is installed is the template of its shape, and counts as one. -/
theorem template?_of_collection (h : r.Guarded) {m : ModelId} {es : Table Nat Value}
    (hx : r.Installed x) (ho : r.object? x = some (.collection m es)) : r.template? m = some x := by
  obtain ⟨a, v, ha, hv, hvx⟩ := hx
  have hbelongs := h.guards.belongs ha hv
  cases v with
  | accessor path => simp [Value.object?] at hvx
  | scalar s => simp [Value.object?] at hvx
  | composite y =>
    obtain rfl : y = x := by simpa [Value.object?] using hvx
    obtain ⟨k, f, ho'⟩ := hbelongs
    simp [ho] at ho'
  | collection y =>
    obtain rfl : y = x := by simpa [Value.object?] using hvx
    obtain ⟨s, hs, horigin⟩ := hbelongs
    obtain ⟨k, es', ho', hk⟩ := shape_eq_ok_iff.mp hs
    obtain ⟨rfl, -⟩ := Object.collection.inj (Option.some.inj (ho.symm.trans ho'))
    obtain ⟨t, ht, hholder⟩ := h.wellFormed.collection ho
    obtain rfl : s = t := by simpa [hk] using ht
    simp [template?, hk, Model.template?, horigin, hholder]

theorem copyable (h : r.Guarded) (ha : r.Under r.Canonical a) (hv : r.HasField a v) :
    r.Copyable v where
  denotes := h.guards.denotes ha hv
  noTemplate x hx := h.guards.noTemplate ha hv (by simp [hx, Value.object?])

theorem templatesCopyable (h : r.Guarded) : r.TemplatesCopyable :=
  fun m d f _ hd hT hv => h.copyable (.root ⟨m, d, hd, rfl⟩) ⟨m, f, hT, hv⟩

theorem bounded (h : r.Guarded) : r.Bounded r.Contains where
  wellFormed := h.wellFormed
  placed := by
    intro m d f role x hd hT hx
    have hcopyable := h.templatesCopyable hd hT (Table.mem_values_of_get? hx)
    refine ⟨hcopyable.denotes.index_lt rfl, hcopyable.noTemplate x rfl, fun n hn => ?_⟩
    exact ⟨d, f, role, x, hd, fields?_eq_some_iff.mpr ⟨m, hT⟩, hx, hn⟩

end Guarded

theorem guarded_declarative : Declarative (Guarded : Repository ts → Prop) where
  wellFormed := Guarded.wellFormed
  addTemplate name kind h := h.addTemplate name kind
  mapEntries m f _ h := h.mapEntries m f
  putQualifiers m qs h := h.mapDatatype (h.wellFormed.putQualifiers m qs) fun _ => ⟨rfl, rfl, rfl⟩
  putScope m _ h hs := h.mapDatatype (h.wellFormed.putScope m hs) fun _ => ⟨rfl, rfl, rfl⟩

theorem guarded_growing : Growing (Guarded : Repository ts → Prop) where
  wellFormed := Guarded.wellFormed
  grew := Guarded.grew

/-- Templates are guarded, and the value refers to nothing that is installed in one. -/
structure GuardedApart (value : Value) (r : Repository ts) : Prop where
  guarded : r.Guarded
  outside : ∀ y, value.object? = some y → r.Outside y

theorem guardedApart_growing (value : Value) :
    Growing (GuardedApart value : Repository ts → Prop) where
  wellFormed h := h.guarded.wellFormed
  grew h hgrew := ⟨h.guarded.grew hgrew, fun y hy => (h.outside y hy).grew hgrew.2⟩

/-- Elements may be whatever leaves templates guarded. -/
theorem GuardedApart.writeElement {value : Value} (h : r.GuardedApart value) {id : ObjectId}
    {index : Nat} (hr' : (r.writeElement id index v).Guarded) :
    (r.writeElement id index v).GuardedApart value :=
  ⟨hr', fun y hy => (h.outside y hy).writeElement id index v⟩

end Repository

end Metamodel
