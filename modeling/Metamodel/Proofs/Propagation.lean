import Metamodel.Proofs.Faithful

/-!
# Metamodel.Proofs.Propagation -- an edit reaches every instance

`r.Coherent E` says that what templates contain is among the edges `E`, that what is held is held
once, and that every composite follows the template of its datatype. A field that is written into a
template breaks the last part for the instances of its datatype; `updateInstances` goes through them
and mends one after the other, while copies that it makes on the way are in step already. Main
statement: an update of a datatype with a value that nothing holds never fails, and leaves the
repository coherent.
-/

namespace Metamodel

open Relation (TransGen)

variable {κ : Type} {ts : TypeSystem κ} {r r' r₀ : Repository ts} {E : ModelId → ModelId → Prop}

namespace Repository

/-- What is held is held once, and every composite follows its template. -/
structure Coherent (E : ModelId → ModelId → Prop) (r : Repository ts) : Prop where
  bounded : r.Bounded E
  tidy : r.Tidy
  synced : r.Synced fun _ => True

/-- What is copied comes in step. -/
theorem Coherent.copied (h : r.Coherent E) (hr' : Step.Copied r r') : r'.Coherent E where
  bounded := h.bounded.grew hr'.grew
  tidy := h.tidy.grew h.bounded.wellFormed hr'.grew.2
  synced := by
    refine ((h.synced.grew h.bounded.wellFormed hr'.grew.2).or hr'.synced).imp fun id _ => ?_
    rcases Nat.lt_or_ge id.index r.objects.size with hlt | hge
    · exact Or.inl ⟨trivial, hlt⟩
    · exact Or.inr hge

/-! ## Fields of templates and of instances -/

variable {S : ObjectId → Prop}

/-- Writing a field of a template concerns the instances of its datatype only. -/
theorem Synced.writeTemplate (h : r.Synced S) (hr : r.WellFormed) {m : ModelId} {d : Datatype κ}
    (hd : r.model? m = some (.datatype d)) (role : String) (value : Option Value) :
    (r.writeField d.template role value).Synced fun a => S a ∧ r.modelOf? a ≠ some m := by
  intro a n e f fT hS hne ho he hT
  have hlast : r.Preserves (r.writeField d.template role value) := preserves_writeField _ _ _
  obtain ⟨hS, hmodel⟩ := hS
  have hn : r.modelOf? a = some n := by
    rw [← modelOf?_writeField d.template role value a]
    exact modelOf?_of_object? ho
  have hnm : n ≠ m := fun hnm => hmodel (hnm ▸ hn)
  rw [model?_writeField] at he
  obtain ⟨fd, hfd⟩ := hr.template hd
  have ha : a ≠ d.template := by
    rintro rfl
    have hm : r.modelOf? d.template = some m := modelOf?_of_object? hfd
    exact hmodel hm
  have ht : e.template ≠ d.template := fun ht => hnm (hr.template_injective he hd ht)
  rw [object?_writeField, if_neg ha] at ho
  rw [object?_writeField, if_neg ht] at hT
  rw [(hlast a _ ho).registeredName]
  exact (h hS hne ho he hT).imp fun v w _ _ hvw => hvw.preserves hlast

/-- Writing a field of an instance puts it in step if its fields are then those of the template. -/
theorem Synced.writeInstance (h : r.Synced S) {id : ObjectId} {m : ModelId} {f : Table String Value}
    {role : String} {value : Option Value} (ho : r.object? id = some (.composite m f))
    (hno : r.NoTemplate id)
    (hfields : ∀ d fT, r.model? m = some (.datatype d) →
      r.object? d.template = some (.composite m fT) →
      fT.Fieldwise (r.Follows (r.registeredName id)) (value.elim (f.erase role) (f.insert role))) :
    (r.writeField id role value).Synced fun a => a = id ∨ S a := by
  intro a n e f' fT hS hne ho' he hT
  have hlast : r.Preserves (r.writeField id role value) := preserves_writeField _ _ _
  rw [model?_writeField] at he
  rw [object?_writeField, if_neg (hno n e he)] at hT
  obtain ⟨g, hg, rfl⟩ := composite_writeField.mp ho'
  rw [(hlast a _ hg).registeredName]
  split
  · next ha =>
    subst ha
    obtain ⟨rfl, rfl⟩ := composite_unique ho hg
    exact (hfields e fT he hT).imp fun v w _ _ hvw => hvw.preserves hlast
  · next ha =>
    have hSa : S a := hS.resolve_left ha
    exact (h hSa hne hg he hT).imp fun v w _ _ hvw => hvw.preserves hlast

/-! ## The instances of a datatype -/

/-- The instances besides the template are those that are registered, each with its path. -/
theorem WellFormed.mem_otherInstances_iff (h : r.WellFormed) {m : ModelId} {d : Datatype κ}
    (hd : r.model? m = some (.datatype d)) {target : ObjectId × String} :
    target ∈ Step.otherInstances (.datatype d) d.template ↔
      (r.registryOf? m).bind (·.get? target.1) = some target.2 ∧ target.1 ≠ d.template := by
  rw [Step.otherInstances, List.mem_filter, decide_eq_true_iff, registryOf?_datatype hd]
  refine and_congr_left' ?_
  cases hg : d.registry with
  | none => simp [Model.registry?, Model.datatype?, hg]
  | some g =>
    simp only [Model.registry?, Model.datatype?, Option.bind_some, hg, Option.elim_some]
    exact ⟨Table.get?_of_mem (h.registry_nodup hd hg), Table.mem_of_get?⟩

theorem WellFormed.registeredName_of_otherInstances (h : r.WellFormed) {m : ModelId}
    {d : Datatype κ} (hd : r.model? m = some (.datatype d)) {target : ObjectId × String}
    (ht : target ∈ Step.otherInstances (.datatype d) d.template) :
    r.registeredName target.1 = target.2 := by
  obtain ⟨f, ho, -⟩ := Step.noTemplate_of_otherInstances h hd ht
  have hmodel : r.modelOf? target.1 = some m := modelOf?_of_object? ho
  simp [registeredName, instanceName?, hmodel, ((h.mem_otherInstances_iff hd).mp ht).1]

theorem WellFormed.nodup_otherInstances (h : r.WellFormed) {m : ModelId} {d : Datatype κ}
    (hd : r.model? m = some (.datatype d)) :
    ((Step.otherInstances (.datatype d) d.template).map (·.1)).Nodup := by
  have hsub : ((Step.otherInstances (.datatype d) d.template).map (·.1)).Sublist
      ((d.registry.elim [] (·.entries)).map (·.1)) :=
    List.Sublist.map _ List.filter_sublist
  refine hsub.nodup ?_
  cases hg : d.registry with
  | none => exact List.nodup_nil
  | some g => exact h.registry_nodup hd hg

/-- Every composite of the datatype is one of them, or is the template. -/
theorem WellFormed.mem_otherInstances (h : r.WellFormed) {m : ModelId} {d : Datatype κ}
    (hd : r.model? m = some (.datatype d)) {id : ObjectId} {f : Table String Value}
    (ho : r.object? id = some (.composite m f)) (hne : id ≠ d.template) :
    id ∈ (Step.otherInstances (.datatype d) d.template).map (·.1) := by
  cases hg : d.registry with
  | none =>
    -- Of an alias there is nothing but the template.
    have halias := (h.registry_none_iff hd).mp hg
    rcases h.instance_kind ho hd with ht | ⟨-, hno, -⟩
    · exact (hne ht).elim
    · simp [hno] at halias
  | some g =>
    have hkey : id ∈ g.keys := (h.registry_keys hd hg id).mpr ⟨f, ho⟩
    obtain ⟨entry, hentry, rfl⟩ := List.mem_map.mp hkey
    refine List.mem_map.mpr ⟨entry, List.mem_filter.mpr ⟨?_, decide_eq_true hne⟩, rfl⟩
    simpa [Model.registry?, Model.datatype?, hg] using hentry

/-! ## Between the first and the last instance -/

/-- The template of `m` has changed its fields from `before` to `after`; the instances in `rest` are
as before, all other composites follow their templates. -/
structure Halfway (E : ModelId → ModelId → Prop) (m : ModelId) (template : ObjectId)
    (before after : Table String Value) (rest : List (ObjectId × String))
    (r : Repository ts) : Prop where
  bounded : r.Bounded E
  tidy : r.Tidy
  synced : r.Synced fun id => id ∉ rest.map (·.1)
  datatype : ∃ d, r.model? m = some (.datatype d) ∧ d.template = template
  template_after : r.object? template = some (.composite m after)
  rest_nodup : (rest.map (·.1)).Nodup
  rest_before : ∀ target ∈ rest, target.1 ≠ template ∧ r.registeredName target.1 = target.2 ∧
    ∃ f, r.object? target.1 = some (.composite m f) ∧ before.Fieldwise (r.Follows target.2) f

variable {m : ModelId} {template : ObjectId} {before after f : Table String Value}
  {target : ObjectId × String} {rest : List (ObjectId × String)}

namespace Halfway

theorem coherent (h : r.Halfway E m template before after []) : r.Coherent E :=
  ⟨h.bounded, h.tidy, h.synced.imp fun _ _ => List.not_mem_nil⟩

theorem noTemplate (h : r.Halfway E m template before after rest) (ht : target ∈ rest) :
    r.NoTemplate target.1 := by
  obtain ⟨hne, -, f, ho, -⟩ := h.rest_before target ht
  obtain ⟨d, hd, ht⟩ := h.datatype
  intro n e he heq
  have hown := h.bounded.wellFormed.eq_template_of_composite ho hd he heq
  exact hne (hown.trans ht)

/-- What is copied on the way follows the changed template. -/
theorem copied (h : r.Halfway E m template before after rest) (hr' : Step.Copied r r') :
    r'.Halfway E m template before after rest where
  bounded := h.bounded.grew hr'.grew
  tidy := h.tidy.grew h.bounded.wellFormed hr'.grew.2
  synced := by
    refine ((h.synced.grew h.bounded.wellFormed hr'.grew.2).or hr'.synced).imp fun id hid => ?_
    rcases Nat.lt_or_ge id.index r.objects.size with hlt | hge
    · exact Or.inl ⟨hid, hlt⟩
    · exact Or.inr hge
  datatype := by
    obtain ⟨d, hd, ht⟩ := h.datatype
    obtain ⟨g, hg⟩ := hr'.grew.2.datatype hd
    exact ⟨_, hg, ht⟩
  template_after := hr'.grew.2.object?_some h.template_after
  rest_nodup := h.rest_nodup
  rest_before := by
    intro target ht
    obtain ⟨hne, hname, f, ho, hf⟩ := h.rest_before target ht
    refine ⟨hne, ?_, f, hr'.grew.2.object?_some ho, ?_⟩
    · rw [hr'.grew.2.registeredName ho, hname]
    · exact hf.imp fun v w _ _ hvw => hvw.preserves hr'.grew.2.preserves

/-- One more instance gets the field, as a copy under its own path. -/
theorem install {role : String} {value copy : Option Value}
    (h : r.Halfway E m template before (value.elim (before.erase role) (before.insert role))
      (target :: rest))
    (hcopy : Option.Rel (r.Follows target.2) value copy)
    (hfresh : ∀ w, copy = some w → r.Fresh w) :
    (r.writeField target.1 role copy).Halfway E m template before
      (value.elim (before.erase role) (before.insert role)) rest := by
  have hno := h.noTemplate List.mem_cons_self
  obtain ⟨hne, hname, f, ho, hf⟩ := h.rest_before target List.mem_cons_self
  obtain ⟨hnot, hnodup⟩ := List.nodup_cons.mp h.rest_nodup
  obtain ⟨d, hd, ht⟩ := h.datatype
  have hlast : r.Preserves (r.writeField target.1 role copy) := preserves_writeField _ _ _
  constructor
  case bounded => exact h.bounded.writeField fun n e y he hid _ => (hno n e he hid).elim
  case tidy => exact h.tidy.writeField target.1 role hfresh
  case synced =>
    refine (h.synced.writeInstance ho hno fun e fT he hT => ?_).imp fun a ha => ?_
    · obtain rfl : d = e := datatype_unique hd he
      rw [ht, h.template_after] at hT
      obtain ⟨-, rfl⟩ := Object.composite.inj (Option.some.inj hT)
      rw [hname]
      exact hf.change role hcopy
    · by_cases haid : a = target.1
      · exact Or.inl haid
      · exact Or.inr fun hmem => (List.mem_cons.mp hmem).elim haid ha
  case datatype => exact ⟨d, by rwa [model?_writeField], ht⟩
  case template_after =>
    rw [object?_writeField, if_neg (Ne.symm hne)]
    exact h.template_after
  case rest_nodup => exact hnodup
  case rest_before =>
    intro other hother
    obtain ⟨hne', hname', g, hg, hfg⟩ := h.rest_before other (List.mem_cons_of_mem target hother)
    have hdiffer : other.1 ≠ target.1 :=
      fun heq => hnot (List.mem_map.mpr ⟨other, hother, heq⟩)
    refine ⟨hne', ?_, g, by rw [object?_writeField, if_neg hdiffer, hg], ?_⟩
    · rw [(hlast _ _ hg).registeredName, hname']
    · exact hfg.imp fun v w _ _ hvw => hvw.preserves hlast

end Halfway

/-- Once the template is written, all of its instances are as before. -/
theorem Coherent.halfway (h : r.Coherent E) {d : Datatype κ}
    (hd : r.model? m = some (.datatype d)) (hT : r.object? d.template = some (.composite m before))
    (role : String) {value : Option Value} (hfresh : ∀ v, value = some v → r.Fresh v)
    (hplaced : ∀ y, value = some (.composite y) → r.Placed (E m) y) :
    (r.writeField d.template role value).Halfway E m d.template before
      (value.elim (before.erase role) (before.insert role))
      (Step.otherInstances (.datatype d) d.template) := by
  have hr := h.bounded.wellFormed
  have hlast : r.Preserves (r.writeField d.template role value) := preserves_writeField _ _ _
  constructor
  case bounded =>
    refine h.bounded.writeField fun n e y he hid hy => ?_
    rw [hr.template_injective he hd hid]
    exact hplaced y hy
  case tidy => exact h.tidy.writeField d.template role hfresh
  case synced =>
    intro a n e f fT ha hne ho he hT'
    refine h.synced.writeTemplate hr hd role value ⟨trivial, fun hm => ?_⟩ hne ho he hT'
    -- A composite of the datatype is among those that are as before.
    obtain ⟨g, hag⟩ := hr.composite_of_modelOf? hd hm
    have hn : n = m := by
      have hn : (r.writeField d.template role value).modelOf? a = some n :=
        modelOf?_of_object? ho
      rw [modelOf?_writeField, hm] at hn
      exact (Option.some.inj hn).symm
    subst hn
    rw [model?_writeField] at he
    obtain rfl : d = e := datatype_unique hd he
    exact ha (hr.mem_otherInstances hd hag hne)
  case datatype => exact ⟨d, by rwa [model?_writeField], rfl⟩
  case template_after =>
    rw [object?_writeField, if_pos rfl, hT]
    rfl
  case rest_nodup => exact hr.nodup_otherInstances hd
  case rest_before =>
    intro target htarget
    obtain ⟨f, ho, hno⟩ := Step.noTemplate_of_otherInstances hr hd htarget
    have hname := hr.registeredName_of_otherInstances hd htarget
    have hne : target.1 ≠ d.template := fun h => hno m d hd h.symm
    refine ⟨hne, ?_, f, by rw [object?_writeField, if_neg hne, ho], ?_⟩
    · rw [(hlast _ _ ho).registeredName, hname]
    · rw [← hname]
      exact (h.synced trivial hne ho hd hT).imp fun v w _ _ hvw => hvw.preserves hlast

/-- `r` is coherent, and everything that was there in `r₀` still is. -/
structure Evolved (E : ModelId → ModelId → Prop) (r₀ r : Repository ts) : Prop where
  coherent : r.Coherent E
  preserves : r₀.Preserves r
  steady : r₀.Steady r

theorem Coherent.evolved (h : r.Coherent E) : r.Evolved E r := ⟨h, .refl r, .refl r⟩

theorem Evolved.trans (h : r₀.Evolved E r) (h' : r.Evolved E r') : r₀.Evolved E r' :=
  ⟨h'.coherent, h.preserves.trans h'.preserves, h.steady.trans h'.steady⟩

theorem Evolved.copied (h : r₀.Evolved E r) (hr' : Step.Copied r r') : r₀.Evolved E r' :=
  h.trans ⟨h.coherent.copied hr', hr'.grew.2.preserves, hr'.grew.2.steady⟩

end Repository

namespace Step

open Repository (Copyable Fresh)

/-! ## Updates -/

theorem setField_ensures {id : ObjectId} {m : ModelId} {f : Table String Value}
    (ho : r.object? id = some (.composite m f)) (role : String) (value : Option Value) :
    (setField id role value).Ensures r (fun _ r' => r' = r.writeField id role value)
      fun _ _ => False := by
  have hobject : r.object id = .ok (.composite m f) := Repository.object_eq_ok_iff.mpr ho
  simp only [setField, ensures_bind, ensures_query, hobject]
  refine ⟨fun object h => ?_, fun e he => by simp at he⟩
  obtain rfl := Except.ok.inj h
  exact rfl

/-- A live target gets the field, or loses it, before the rest: first its copy is made, then the
copy is written into it. -/
theorem ensures_propagate_cons {role : String} {value : Option Value}
    {target : ObjectId × String} {rest : List (ObjectId × String)}
    {Q : Option Value → Repository ts → Prop} {ok : Repository ts → Prop}
    {fails : Error → Repository ts → Prop} (hlive : r.isLive target.1 = true)
    (hnone : value = none → Q none r)
    (hsome : ∀ v, value = some v →
      (cloneValue v target.2 true).Ensures r (fun w => Q (some w)) fails)
    (hrest : ∀ copy r₁, Q copy r₁ → ∃ m f, r₁.object? target.1 = some (.composite m f) ∧
      (propagate role value rest).Ensures (r₁.writeField target.1 role copy) (fun _ => ok) fails) :
    (propagate role value (target :: rest)).Ensures r (fun _ => ok) fails := by
  have hinstall : ∀ copy r₁, Q copy r₁ →
      (do
        setField target.1 role copy
        let count ← propagate role value rest
        pure (count + 1) : Step ts Nat).Ensures r₁ (fun _ => ok) fails := by
    intro copy r₁ hcopy
    obtain ⟨m, f, ho, hpropagate⟩ := hrest copy r₁ hcopy
    rw [ensures_bind]
    refine (setField_ensures ho role copy).imp ?_ fun _ _ h => h.elim
    rintro _ r₂ rfl
    rw [ensures_bind]
    exact hpropagate
  rw [propagate, ensures_bind, ensures_ask, if_pos hlive]
  cases value with
  | none =>
    rw [ensures_bind, ensures_pure]
    exact hinstall none r (hnone rfl)
  | some v =>
    rw [ensures_bind, ensures_map]
    exact (hsome v rfl).imp (fun w r₁ => hinstall (some w) r₁) fun _ _ h => h

/-- The field is installed in one instance after the other, and none of the copies fails. -/
theorem propagate_ensures (hE : ∀ m, ¬ TransGen E m m) {m : ModelId} {template : ObjectId}
    {before : Table String Value} {role : String} {value : Option Value}
    {targets : List (ObjectId × String)}
    (h : r.Halfway E m template before (value.elim (before.erase role) (before.insert role))
      targets)
    (hvalue : ∀ v, value = some v → r.Copyable v) :
    (propagate role value targets).Ensures r (fun _ => r.Evolved E) fun _ _ => False := by
  induction targets generalizing r with
  | nil => exact h.coherent.evolved
  | cons target rest ih =>
    obtain ⟨-, -, f, ho, -⟩ := h.rest_before target List.mem_cons_self
    apply ensures_propagate_cons (Q := fun copy r₁ => r.Preserves r₁ ∧ r.Steady r₁ ∧
      r₁.Halfway E m template before (value.elim (before.erase role) (before.insert role))
        (target :: rest) ∧
      Option.Rel (r₁.Follows target.2) value copy ∧ ∀ w, copy = some w → r₁.Fresh w)
    case hlive => exact Repository.isLive_iff.mpr ⟨_, ho⟩
    case hnone =>
      rintro rfl
      exact ⟨.refl r, .refl r, h, .none, fun w hw => by simp at hw⟩
    case hsome =>
      rintro v rfl
      refine (cloneValue_copies (h.bounded.orderly hE) h.tidy (hvalue v rfl) target.2 true).imp ?_
        fun _ _ h => h
      rintro w r₁ ⟨h₁, hloose, hfollows⟩
      refine ⟨h₁.grew.2.preserves, h₁.grew.2.steady, h.copied h₁, .some hfollows, ?_⟩
      rintro w' hw'
      obtain rfl := Option.some.inj hw'
      exact h.tidy.fresh h.bounded.wellFormed h₁.grew.2 hloose
    case hrest =>
      rintro copy r₁ ⟨hlast, hsteady, h₁, hcopy, hfresh⟩
      obtain ⟨-, -, g, ho₁, -⟩ := h₁.rest_before target List.mem_cons_self
      have hlast₂ : r.Preserves (r₁.writeField target.1 role copy) :=
        hlast.trans (Repository.preserves_writeField _ _ _)
      have hsteady₂ : r.Steady (r₁.writeField target.1 role copy) :=
        hsteady.trans (Repository.steady_writeField _ _ _)
      have hvalue₂ : ∀ v, value = some v → (r₁.writeField target.1 role copy).Copyable v :=
        fun v hv => (hvalue v hv).later hlast₂ hsteady₂
      refine ⟨m, g, ho₁, (ih (h₁.install hcopy hfresh) hvalue₂).imp ?_ fun _ _ h => h⟩
      intro _ r₃ h₃
      exact ⟨h₃.coherent, hlast₂.trans h₃.preserves, hsteady₂.trans h₃.steady⟩

/-- The template of a datatype is written first, and that cannot fail; then come the instances. -/
theorem ensures_updateInstances (hr : r.WellFormed) {m : ModelId} {d : Datatype κ}
    (hd : r.model? m = some (.datatype d)) {role : String} {value : Option Value}
    {ok : Unit → Repository ts → Prop} {fails : Error → Repository ts → Prop}
    (h : (propagate role value (otherInstances (.datatype d) d.template)).Ensures
      (r.writeField d.template role value) (fun _ => ok ()) fails) :
    (updateInstances m role value).Ensures r ok fails := by
  have hmodel : r.model m = .ok (.datatype d) := Repository.model_eq_ok_iff.mpr hd
  obtain ⟨fT, hT⟩ := hr.template hd
  simp only [updateInstances, ensures_bind, ensures_query, hmodel]
  refine ⟨fun model hm => ?_, fun e he => by simp at he⟩
  obtain rfl := Except.ok.inj hm
  show (do
    setField d.template role value
    let count ← propagate role value (otherInstances (.datatype d) d.template)
    note fun r => .propagated (r.nameOf m) role count : Step ts Unit).Ensures r _ _
  rw [ensures_bind]
  refine (setField_ensures hT role value).imp ?_ fun _ _ h => h.elim
  rintro _ r₁ rfl
  rw [ensures_bind]
  exact h

/-- A field is written into the template of a datatype and all of its instances, or removed there.
-/
theorem updateInstances_ensures (hE : ∀ m, ¬ TransGen E m m) (h : r.Coherent E) {m : ModelId}
    {d : Datatype κ} (hd : r.model? m = some (.datatype d)) (role : String) {value : Option Value}
    (hfresh : ∀ v, value = some v → r.Fresh v)
    (hplaced : ∀ y, value = some (.composite y) → r.Placed (E m) y) :
    (updateInstances m role value).Ensures r (fun _ => r.Evolved E) fun _ _ => False := by
  obtain ⟨fT, hT⟩ := h.bounded.wellFormed.template hd
  refine ensures_updateInstances h.bounded.wellFormed hd ?_
  have hlast : r.Preserves (r.writeField d.template role value) :=
    Repository.preserves_writeField _ _ _
  have hsteady : r.Steady (r.writeField d.template role value) :=
    Repository.steady_writeField _ _ _
  have hvalue : ∀ v, value = some v → (r.writeField d.template role value).Copyable v := by
    intro v hv
    have hcopyable : r.Copyable v :=
      ⟨(hfresh v hv).denotes, fun x hx => (hfresh v hv).noTemplate (by rw [hx]; rfl)⟩
    exact hcopyable.later hlast hsteady
  refine (propagate_ensures hE (h.halfway hd hT role hfresh hplaced) hvalue).imp ?_
    fun _ _ h => h
  intro _ r₂ h₂
  exact ⟨h₂.coherent, hlast.trans h₂.preserves, hsteady.trans h₂.steady⟩

end Step

end Metamodel
