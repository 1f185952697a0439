import Metamodel.Proofs.Atomicity
import Metamodel.Proofs.Representation
import Metamodel.Proofs.Upholding

/-!
# Metamodel.Proofs.Rejection -- what a rejected declaration leaves behind

The check of a constructor does not look into the dimensions of members, nor along all of their
aliases, and takes an instance of a module for a module. What is refused for such a reason is
refused after the datatype has been added. Main statement: which rejections leave no trace; those
that leave one leave the datatype that was begun, and nothing else is touched.
-/

namespace Metamodel

namespace Idl

open Step (ensures_bind ensures_query ensures_ask ensures_edit ensures_note ensures_pure)
open Repository (Accepted)

variable {limits : Limits} {r r' : Repository (system limits)} {name : String} {kind : Kind}

/-! ## What a datatype that has been begun does not change -/

namespace Begun

variable (h : Begun r name kind r') (hr : r.WellFormed)

include h hr

/-- What an old template holds is old. -/
theorem heldModels (ht : r.Tidy) {m : ModelId} {d : Datatype Kind}
    (hd : r.model? m = some (.datatype d)) :
    ∃ held, r'.heldModels m = .ok held ∧ ∀ n ∈ held, ∃ e, r.model? n = some (.datatype e) := by
  obtain ⟨f, hf⟩ := hr.template hd
  have hf' : r'.fields? d.template = some f := Repository.fields?_eq_some_iff.mpr
    ⟨m, h.sameBut.composite_same hf (Repository.ne_nextModel hd)⟩
  refine Repository.exists_heldModels (h.sameBut.template? hd) hf' fun x hx => ?_
  obtain ⟨n, g, ho⟩ := ht.denotes hf hx
  exact ⟨n, h.sameBut.preserves.modelOf? (Repository.modelOf?_of_object? ho), hr.composite ho⟩

/-- Nothing leads to the datatype that has been begun. -/
theorem reachesModel (hkind : (system limits).isCollection kind = false) (ht : r.Tidy)
    {id : ObjectId} {resolved : Resolved} (hres : r.resolve id = .ok resolved) :
    r'.reachesModel id r.nextModel = .ok false := by
  have hup := h.upholds hkind
  obtain ⟨hres', htarget⟩ := (hup.retainsAliases hr).resolve hres
  obtain ⟨-, m, f, d, ho, hd, -⟩ := Repository.assertTemplateKind_eq_ok_iff.mp htarget
  refine bind_eq_ok_iff.mpr ⟨resolved, hres', ?_⟩
  split
  · refine bind_eq_ok_iff.mpr ⟨m, hup.modelOf (Repository.modelOf_of_object? ho), ?_⟩
    refine Repository.search_of_closed (S := fun n => ∃ e, r.model? n = some (.datatype e))
      (by simpa using ⟨d, hd⟩) ?_
    rintro n ⟨e, he⟩
    exact ⟨Repository.ne_nextModel he, h.heldModels hr ht he⟩
  · rfl

end Begun

/-! ## Structures and unions -/

/-- All that can be refused of a member after its datatype has been added: its value, and the end of
its chain of aliases, where it has no dimensions. -/
structure Obtainable (r : Repository (system limits)) (member : Member) : Prop where
  value : ∃ v, ((Step.createRoleInstance member.datatype member.role member.qualifiers).run r).answer
    = .ok v
  resolves : member.qualifiers.any r.isCollectionQualifier = true ∨
    ∃ resolved, r.resolve member.datatype = .ok resolved

section Constructors

variable (hr : r.Consistent)

include hr

/-- A member that could be obtained before is accepted by a datatype that has been begun. -/
theorem Begun.accepts (h : Begun r name kind r') (hr' : r'.Consistent)
    (hkind : (system limits).isCollection kind = false) {member : Member}
    (haccepted : r.Accepted (.member member)) (hmember : Obtainable r member) :
    Step.Accepts r' r.nextModel r.nextObject member := by
  have hup := h.upholds hkind
  have hcollection := hup.isCollectionQualifier hr.wellFormed
  cases haccepted.sameBut h.sameBut with
  | member hrole _ hqualifiers =>
    constructor
    case canonical => exact h.canonicalModel
    case role => exact hrole
    case qualifiers => exact hqualifiers
    case admits =>
      refine hmember.resolves.imp (fun hany => hcollection ▸ hany) ?_
      rintro ⟨resolved, hres⟩
      exact h.reachesModel hr.wellFormed hkind hr.tidy hres
    case value =>
      obtain ⟨v, hv⟩ := hmember.value
      have hvalue := (Step.createRoleInstance_hasValue hr.orderly hr.tidy _ _ _).ok_of_answer hv
      have hvalue' := hup.hasValue hr.wellFormed hvalue
      have hobtains := Step.createRoleInstance_hasValue hr'.orderly hr'.tidy member.datatype
        member.role member.qualifiers
      obtain ⟨w, hw, -⟩ := (hobtains.imp (fun _ _ h => h) fun _ _ hno => hno hvalue').answers
      exact ⟨w, hw⟩

/-- A datatype that has been begun gets its members and stays consistent. -/
theorem Begun.defineMember (h : Begun r name kind r') (hr' : r'.Consistent)
    (hkind : (system limits).isCollection kind = false) {member : Member}
    (haccepted : r.Accepted (.member member)) (hmember : Obtainable r member) :
    (Step.defineMember r.nextObject member).Ensures r'
      (fun _ r'' => r''.Consistent ∧ Begun r name kind r'') fun _ _ => False := by
  refine ((Step.defineMember_ensures hr' r.nextObject member).and (begun_defineMember h member)).imp
    (fun _ _ h' => h') fun _ _ h' => ?_
  exact h'.1.2 _ (h.accepts hr hr' hkind haccepted hmember)

omit hr in
/-- A structure is what its chain of aliases comes to. -/
theorem plain_of_struct (hr : r.WellFormed) {b : ObjectId} (hb : r.kind? b = some Kind.struct) :
    ∃ m, r.IsPlain b m := by
  obtain ⟨m, hm, hk⟩ := Option.bind_eq_some_iff.mp hb
  obtain ⟨d, hd, hk⟩ := Repository.kindOf?_eq_some_iff.mp hk
  obtain ⟨f, ho⟩ := hr.composite_of_modelOf? hd hm
  exact ⟨m, f, d, ho, hd, by rw [hk]; rfl, by rw [hk]; rfl⟩

/-- A datatype that has just been added has no base yet, and nothing leads to it. -/
theorem acceptsBase_addTemplate {b : ObjectId} (hb : r.kind? b = some Kind.struct) (name : String) :
    Step.AcceptsBase (r.addTemplate name Kind.struct) r.nextModel r.nextObject (some b) where
  canonical := Repository.canonicalModel_addTemplate name Kind.struct
  admits := by
    intro b' heq
    obtain rfl := Option.some.inj heq
    have hstart := Begun.start hr.wellFormed name Kind.struct
    obtain ⟨m, hplain⟩ := plain_of_struct hr.wellFormed hb
    exact ⟨hstart.sameBut.assertTemplateKind hplain.assertTemplateKind,
      hstart.reachesModel hr.wellFormed rfl hr.tidy hplain.resolve⟩
  leaves := by
    intro b' hb'
    rw [Repository.entriesOf_addTemplate, if_pos rfl] at hb'
    simp [Entry.base?] at hb'

theorem newStruct_leavesNoTrace (name : String) {entries : List Entry}
    (hmembers : ∀ member, .member member ∈ entries → Obtainable r member) :
    (newStruct name entries).LeavesNoTrace r := by
  have hstart := Begun.start hr.wellFormed name Kind.struct
  have hconsistent := Repository.consistent_declarative.addTemplate name Kind.struct hr
  have hensures : (newStruct name entries).Ensures r
      (fun _ r' => r'.Consistent ∧ Begun r name .struct r') fun _ r' => r' = r := by
    refine newStruct_ensures (fun _ h => h.2) ⟨hconsistent, hstart⟩ (fun _ _ => rfl)
      (fun b hb => ?_) (fun member hmem haccepted r' h' => ?_) fun r' qs h' =>
        ⟨Repository.consistent_declarative.putQualifiers _ qs h'.1, h'.2.putQualifiers qs⟩
    · -- The new datatype has no base yet, and what was there does not lead to it.
      have hb' : (r.addTemplate name Kind.struct).kind? b = some .struct :=
        Repository.kind?_addTemplate hb
      have halias : ∀ b' m, some b = some b' →
          (r.addTemplate name Kind.struct).modelOf? b' = some m →
            (r.addTemplate name Kind.struct).isAlias m = false := by
        intro b' m heq hm
        obtain rfl := Option.some.inj heq
        exact isAlias_of_struct hb' hm
      refine ((Step.setBase_ensures hconsistent halias).and (Step.setBase_fields hstart.wellFormed
        hstart.canonicalModel halias)).imp (fun _ _ h' => ⟨h'.1.1, hstart.trans h'.2.edited⟩) ?_
      exact fun _ _ h' => (h'.1.2 _ (acceptsBase_addTemplate hr hb name)).elim
    · exact (h'.2.defineMember hr h'.1 rfl haccepted (hmembers member hmem)).imp (fun _ _ h => h)
        fun _ _ h => h.elim
  exact fun e he => hensures.fails_of_answer he

/-- A union that has been begun gets the leaf of its discriminator, which declares no member. -/
theorem updateInstances_discriminator (name : String) (discriminator : ObjectId)
    (h : Begun r name .union ((r.addTemplate name Kind.union).mapEntries r.nextModel
      (· ++ [.type discriminator]))) :
    (Step.updateInstances r.nextModel discriminatorRole
      (some (.accessor discriminatorMarker))).Ensures
        ((r.addTemplate name Kind.union).mapEntries r.nextModel (· ++ [.type discriminator]))
        (fun _ r' => r'.Consistent ∧ Begun r name .union r' ∧
          r'.entriesOf r.nextModel = [.type discriminator]) fun _ _ => False := by
  obtain ⟨-, d, hd, -⟩ := Repository.canonicalModel_eq_ok_iff.mp h.canonicalModel
  obtain ⟨e, he, -⟩ := Repository.model?_mapDatatype_datatype.mp hd
  have hconsistent := Repository.consistent_declarative.addTemplate name Kind.union hr
  have hconsistent' := (hconsistent.coherent.mapEntries r.nextModel
    (· ++ [.type discriminator])).consistent hconsistent.acyclic
  refine ((Step.updateInstances_consistent hconsistent' hd discriminatorRole ?_).and
    (Step.updateInstances_updated h.wellFormed hd discriminatorRole _)).imp ?_
      fun _ _ h' => h'.1.elim
  · rintro v hv
    obtain rfl := Option.some.inj hv
    rfl
  · rintro _ r' ⟨⟨hconsistent'', -⟩, hupdated⟩
    refine ⟨hconsistent'', h.trans hupdated.edited.weaken, ?_⟩
    rw [hupdated.edited.sameBut.entriesOf hd (by simp), Repository.entriesOf_mapEntries he,
      Repository.entriesOf_addTemplate, if_pos rfl]
    rfl

theorem newUnion_leavesNoTrace (name : String) (discriminator : ObjectId) {entries : List Entry}
    (hmembers : ∀ member, .member member ∈ entries → Obtainable r member) :
    (newUnion name discriminator entries).LeavesNoTrace r := by
  have hensures : (newUnion name discriminator entries).Ensures r
      (fun _ r' => r'.Consistent ∧ Begun r name .union r') fun _ r' => r' = r := by
    refine newUnion_ensures (fun _ h => h.2) (fun _ => rfl) (fun h => ?_)
      (fun member hmem haccepted r' h' => ?_) (fun r' qs h' =>
        ⟨Repository.consistent_declarative.putQualifiers _ qs h'.1, h'.2.putQualifiers qs⟩)
      hr.wellFormed
    · exact (updateInstances_discriminator hr name discriminator h).imp
        (fun _ _ h' => ⟨h'.1, h'.2.1⟩) fun _ _ h' => h'.elim
    · exact (h'.2.defineMember hr h'.1 rfl haccepted (hmembers member hmem)).imp (fun _ _ h => h)
        fun _ _ h => h.elim
  exact fun e he => hensures.fails_of_answer he

end Constructors

/-! ## Enumerations, aliases, modules and constants -/

/-- A leaf is written into every instance, and that cannot fail. -/
theorem propagate_leaf {targets : List (ObjectId × String)} (role : String) {v : Value}
    (hv : v.object? = none)
    (htargets : ∀ target ∈ targets, ∃ m f, r.object? target.1 = some (.composite m f)) :
    (Step.propagate role (some v) targets).Ensures r (fun _ _ => True) fun _ _ => False := by
  induction targets generalizing r with
  | nil => exact trivial
  | cons target rest ih =>
    obtain ⟨m, f, ho⟩ := htargets target List.mem_cons_self
    have hlive : r.isLive target.1 = true := Repository.isLive_iff.mpr ⟨_, ho⟩
    rw [Step.propagate, ensures_bind, ensures_ask, if_pos hlive]
    have hclone : (Step.cloneValue v target.2 true).Ensures r (fun _ r' => r' = r)
        fun _ _ => False := by
      cases v with
      | accessor leaf => exact rfl
      | scalar s => exact rfl
      | composite x => simp [Value.object?] at hv
      | collection x => simp [Value.object?] at hv
    rw [ensures_bind, Step.ensures_map]
    refine hclone.imp ?_ fun _ _ h => h
    rintro copy r' rfl
    rw [ensures_bind]
    refine (Step.setField_ensures ho role _).imp ?_ fun _ _ h => h
    rintro _ r₁ rfl
    rw [ensures_bind]
    refine (ih fun other hother => ?_).imp (fun _ _ _ => trivial) fun _ _ h => h
    obtain ⟨n, g, hg⟩ := htargets other (List.mem_cons_of_mem target hother)
    exact ⟨n, _, Repository.composite_writeField.mpr ⟨g, hg, rfl⟩⟩

theorem updateInstances_leaf (hr : r.WellFormed) {m : ModelId} {d : Datatype Kind}
    (hd : r.model? m = some (.datatype d)) (role : String) {v : Value} (hv : v.object? = none) :
    (Step.updateInstances m role (some v)).Ensures r
      (fun _ r' => r.Edited (· = m) (fun _ => False) r') fun _ _ => False := by
  have hanswers : (Step.updateInstances m role (some v)).Ensures r (fun _ _ => True)
      fun _ _ => False := by
    refine Step.ensures_updateInstances hr hd (propagate_leaf role hv fun target htarget => ?_)
    obtain ⟨f, ho, -⟩ := Step.noTemplate_of_otherInstances hr hd htarget
    exact ⟨m, _, Repository.composite_writeField.mpr ⟨f, ho, rfl⟩⟩
  exact (hanswers.and (Step.updateInstances_updated hr hd role (some v))).imp
    (fun _ _ h => h.2.edited) fun _ _ h => h.1

theorem setScope_ensures {child : ObjectId} {scope : Option ObjectId} {n : ModelId}
    (hchild : r.canonicalModel child = .ok n) :
    (Step.setScope child scope).Ensures r
      (fun _ r' => ∃ outer, scope.mapM r.canonicalModel = .ok outer ∧ r' = r.putScope n outer)
      fun e r' => r' = r ∧ scope.mapM r.canonicalModel = .error e := by
  simp only [Step.setScope, ensures_bind, ensures_query, hchild]
  refine ⟨fun n' hn => ⟨fun outer houter => ?_, fun e he => ⟨trivial, he⟩⟩,
    fun e he => by simp at he⟩
  obtain rfl := Except.ok.inj hn
  exact ⟨outer, houter, rfl⟩

/-- What is canonical is put into anything that is canonical. -/
theorem addToScope_ensures {scope child : ObjectId} {n : ModelId}
    (hchild : r.canonicalModel child = .ok n) :
    (Step.addToScope scope child).Ensures r (fun _ _ => True)
      fun _ r' => r' = r ∧ ∀ m, r.canonicalModel scope ≠ .ok m := by
  rw [Step.addToScope, ensures_bind]
  refine (setScope_ensures hchild).imp ?_ ?_
  · rintro _ r₁ ⟨outer, houter, rfl⟩
    obtain ⟨m, hm⟩ : ∃ m, r.canonicalModel scope = .ok m := by
      cases hm : r.canonicalModel scope with
      | ok m => exact ⟨m, rfl⟩
      | error e => simp [hm, Functor.map, Except.map] at houter
    -- The new scope changes no template.
    have hsame : r.SameBut (fun _ => False) (fun _ => True) (r.putScope n outer) :=
      Repository.sameBut_mapDatatype trivial fun _ => ⟨rfl, rfl, rfl⟩
    rw [ensures_bind, ensures_query, hsame.canonicalModel hm]
    exact ⟨fun _ _ => trivial, fun e he => by simp at he⟩
  · rintro e r₁ ⟨rfl, he⟩
    refine ⟨rfl, fun m hm => ?_⟩
    simp [hm, Functor.map, Except.map] at he

section Leaves

variable (hr : r.WellFormed)

include hr

theorem newEnum_begun (name : String) (enumerators : List (String × Option Int64)) :
    (newEnum name enumerators).Ensures r (fun _ => Begun r name .enum) fun _ r' => r' = r := by
  refine newEnum_ensures (begins_begun hr name Kind.enum) fun r' h' role scalar => ?_
  obtain ⟨-, d, hd, -⟩ := Repository.canonicalModel_eq_ok_iff.mp h'.canonicalModel
  refine (updateInstances_leaf h'.wellFormed hd role ?_).imp (fun _ _ h => h'.trans h.weaken)
    fun _ _ h => h
  rfl

theorem newEnum_leavesNoTrace (name : String) (enumerators : List (String × Option Int64)) :
    (newEnum name enumerators).LeavesNoTrace r :=
  fun _ he => (newEnum_begun hr name enumerators).fails_of_answer he

theorem newTypedef_leavesNoTrace (name : String) (target : ObjectId)
    (qualifiers : List Qualifier) : (newTypedef name target qualifiers).LeavesNoTrace r :=
  fun _ he => (newTypedef_ensures (begins_begun hr name Kind.typedef) target
    qualifiers).fails_of_answer he

theorem newConstant_leavesNoTrace (name : String) (datatype : ObjectId) (value : Scalar) :
    (newConstant name datatype value).LeavesNoTrace r :=
  fun _ he => (newConstant_ensures (begins_begun hr name Kind.const) datatype
    value).fails_of_answer he

/-- A module is refused inside of what is no canonical template, and that after it has been made. -/
theorem newModule_ensures (name : String) (parent : Option ObjectId) :
    (newModule name parent).Ensures r (fun _ _ => True) fun _ r' => r' = r ∨
      r' = r.addTemplate name Kind.module ∧
        ∃ scope, parent = some scope ∧ ∀ m, r.canonicalModel scope ≠ .ok m := by
  simp only [newModule, ensures_bind, ensures_query]
  refine ⟨fun checked hmodule => ?_, fun _ _ => Or.inl trivial⟩
  have hstart := Begun.start hr name Kind.module
  simp only [Step.newTemplate, ensures_bind, ensures_ask, ensures_edit, ensures_note,
    ensures_pure]
  cases parent with
  | none => exact trivial
  | some scope =>
    rw [ensures_bind]
    refine (addToScope_ensures hstart.canonicalModel).imp (fun _ _ _ => trivial) ?_
    rintro _ r' ⟨rfl, hno⟩
    refine Or.inr ⟨rfl, scope, rfl, fun m hm => ?_⟩
    exact hno m (hstart.sameBut.canonicalModel hm)

theorem newModule_leavesNoTrace (name : String) {parent : Option ObjectId}
    (hparent : ∀ scope, parent = some scope → ∃ m, r.canonicalModel scope = .ok m) :
    (newModule name parent).LeavesNoTrace r := by
  intro e he
  refine ((newModule_ensures hr name parent).fails_of_answer he).resolve_right ?_
  rintro ⟨-, scope, hscope, hno⟩
  obtain ⟨m, hm⟩ := hparent scope hscope
  exact hno m hm

end Leaves

/-! ## Runs -/

/-- In every state of every run, a rejected enumeration, alias or constant leaves no trace, and
neither does a module inside of a canonical template. A rejected structure or union leaves all that
was there as it was. It leaves no trace if each member that it declares can be obtained, and fields
have been written through declarations only. -/
theorem rejections_of_reached
    (h : Reached Operation.perform (fun _ _ => True) (initial limits) r) :
    (∀ name enumerators, (newEnum name enumerators).LeavesNoTrace r) ∧
    (∀ name target qualifiers, (newTypedef name target qualifiers).LeavesNoTrace r) ∧
    (∀ name datatype value, (newConstant name datatype value).LeavesNoTrace r) ∧
    (∀ name parent, (∀ scope, parent = some scope → ∃ m, r.canonicalModel scope = .ok m) →
      (newModule name parent).LeavesNoTrace r) ∧
    (∀ name entries, r.SameBut (· = r.nextModel) (· = r.nextModel)
      ((newStruct name entries).run r).repo) ∧
    (∀ name discriminator entries, r.SameBut (· = r.nextModel) (· = r.nextModel)
      ((newUnion name discriminator entries).run r).repo) ∧
    (Reached Operation.perform Operation.KeepsInstances (initial limits) r →
      (∀ name entries, (∀ member, .member member ∈ entries → Obtainable r member) →
        (newStruct name entries).LeavesNoTrace r) ∧
      ∀ name discriminator entries,
        (∀ member, .member member ∈ entries → Obtainable r member) →
          (newUnion name discriminator entries).LeavesNoTrace r) := by
  have hr : r.WellFormed := h.invariant (Operation.wellFormed_run limits [])
    fun _ operation hr _ => (Operation.perform_sound hr.sound operation).wellFormed
  have hsame : ∀ {x : Step (system limits) ObjectId} {name kind}, x.Ensures r
      (fun _ => Begun r name kind) (fun _ r' => r' = r ∨ Begun r name kind r') →
        r.SameBut (· = r.nextModel) (· = r.nextModel) (x.run r).repo := by
    intro x name kind hx
    refine (hx.imp (fun _ _ h' => h'.sameBut) ?_).repo
    rintro _ r' (rfl | h')
    · exact .refl _
    · exact h'.sameBut
  refine ⟨newEnum_leavesNoTrace hr, newTypedef_leavesNoTrace hr, newConstant_leavesNoTrace hr,
    fun name _ => newModule_leavesNoTrace hr name,
    fun name entries => hsame (newStruct_begun hr name entries),
    fun name discriminator entries => hsame (newUnion_begun hr name discriminator entries),
    fun hkeeps => ⟨?_, ?_⟩⟩
  · exact fun name entries => newStruct_leavesNoTrace (consistent_of_reached hkeeps) name
  · exact fun name discriminator entries =>
      newUnion_leavesNoTrace (consistent_of_reached hkeeps) name discriminator

/-- A sequence of no elements is refused after its structure has been added. -/
theorem leftover_datatype :
    let bad : Step (system ⟨4, 4⟩) ObjectId :=
      newStruct "Bad" [.member ⟨"x", Atom.long.template, [sequence (.size 0)], []⟩]
    (bad.run (initial ⟨4, 4⟩)).answer = .error (.capacity .zero) ∧
      (initial ⟨4, 4⟩).models.size = 21 ∧ (bad.run (initial ⟨4, 4⟩)).repo.models.size = 22 ∧
      ¬ bad.LeavesNoTrace (initial ⟨4, 4⟩) := by
  intro bad
  have herror : (bad.run (initial ⟨4, 4⟩)).answer = .error (.capacity .zero) := by decide +kernel
  have hbefore : (initial ⟨4, 4⟩).models.size = 21 := by decide +kernel
  have hafter : (bad.run (initial ⟨4, 4⟩)).repo.models.size = 22 := by decide +kernel
  refine ⟨herror, hbefore, hafter, fun h => ?_⟩
  rw [h _ herror, hbefore] at hafter
  omega

/-- A structure that declares a member twice is refused and leaves no trace. -/
theorem rejections_twice :
    let r := initial ⟨4, 4⟩
    let x : Member := ⟨"x", Atom.long.template, [sequence (.size 3)], []⟩
    let twice : Step (system ⟨4, 4⟩) ObjectId := newStruct "Twice" [.member x, .member x]
    (twice.run r).answer = .error (.declaration "Twice" (.duplicateMember "x")) ∧
      (twice.run r).repo = r := by
  intro r x twice
  have herror : (twice.run r).answer = .error (.declaration "Twice" (.duplicateMember "x")) := by
    decide +kernel
  have hvalue : ((Step.createRoleInstance x.datatype x.role x.qualifiers).run r).answer =
      .ok (.collection ⟨21⟩) := by decide +kernel
  have hdimension : x.qualifiers.any r.isCollectionQualifier = true := by decide +kernel
  have hreached : Reached Operation.perform (fun _ _ => True) (initial ⟨4, 4⟩) r := .start
  have hkeeps : Reached Operation.perform Operation.KeepsInstances (initial ⟨4, 4⟩) r := .start
  obtain ⟨-, -, -, -, -, -, hobtainable⟩ := rejections_of_reached hreached
  refine ⟨herror, (hobtainable hkeeps).1 "Twice" _ (fun member hmem => ?_) _ herror⟩
  obtain rfl : member = x := by simpa using hmem
  exact ⟨⟨_, hvalue⟩, Or.inl hdimension⟩

end Idl

end Metamodel
