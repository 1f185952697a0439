import Metamodel.Proofs.Members
import Metamodel.Proofs.Synchrony

/-!
# Metamodel.Proofs.Bases -- the roles of a structure whose base has been changed

What goes with the old base is found from the old base as it is now. So a role that was inherited
and that the base has lost since then is left over. Main statement: the roles after a change of the
base are those that are declared, those of the new base, and those that are left over.
-/

namespace Metamodel.Idl

open Step (ensures_bind ensures_query ensures_ask)

variable {limits : Limits} {r : Repository (system limits)}

/-- A change of the base that succeeds is one of a canonical template, to a structure or to none. -/
theorem setBase_fields (hr : r.WellFormed) (template : ObjectId) (base : Option ObjectId) :
    (setBase template base).Ensures r
      (fun _ r' => ∃ target, base.mapM (structTarget (r.label template) · r) = .ok target ∧
        ∃ m, r.canonicalModel template = .ok m ∧ Step.Rebased m target r r')
      fun _ _ => True := by
  refine setBase_ensures (fun _ => trivial) fun target _ hkind => ?_
  refine Step.ensures_canonical (fun _ => trivial) fun m hm => ?_
  exact (Step.setBase_fields hr hm fun b n hb hn => isAlias_of_struct (hkind b hb) hn).imp
    (fun _ _ h => ⟨m, hm, h⟩) fun _ _ _ => trivial

/-- After a change of the base the template of a structure has the roles that it declares, those of
the new base, and those that it had before and that the old base does not contribute any more; and
every live instance has the same roles. -/
theorem roles_of_setBase
    (h : Reached Operation.perform Operation.KeepsMembers (initial limits) r) {template : ObjectId}
    {base : Option ObjectId} (hok : ((setBase template base).run r).answer = .ok ()) :
    let r' := ((setBase template base).run r).repo
    ∃ m target f, r.canonicalModel template = .ok m ∧
      base.mapM (structTarget (r.label template) · r) = .ok target ∧
      r'.fields? template = some f ∧
      (∀ role, role ∈ f.keys ↔ r.Declares m role ∨ role ∈ target.elim [] r.rolesOf ∨
        role ∈ r.rolesOf template ∧ role ∉ r.inherited m) ∧
      (Reached Operation.perform Operation.KeepsInstances (initial limits) r →
        ∀ id path, (r'.registryOf? m).bind (·.get? id) = some path →
          ∃ g, r'.fields? id = some g ∧ g.keys = f.keys) := by
  intro r'
  have hr := fielded_of_reached h
  obtain ⟨target, htarget, m, hm, hrebased⟩ :=
    (setBase_fields hr.wellFormed template base).ok_of_answer hok
  obtain ⟨hmodel, d, hd, ht⟩ := Repository.canonicalModel_eq_ok_iff.mp hm
  obtain ⟨d', hd', -, ht', -⟩ := hrebased.edited.sameBut.datatype hd
  obtain ⟨f, hf⟩ := hrebased.edited.wellFormed.template hd'
  rw [ht', ht] at hf
  have hfields : r'.fields? template = some f := Repository.fields?_eq_some_iff.mpr ⟨m, hf⟩
  refine ⟨m, target, f, hm, htarget, hfields, fun role => ?_, fun hreached id path hpath => ?_⟩
  · rw [Table.mem_keys_iff, ← Repository.templateField?_eq hd' (by rw [ht', ht, hf]),
      hrebased.field_iff, hr.wellFormed.mem_rolesOf hmodel hd]
    -- A role that is declared has a field, so that it does not matter what the old base has.
    constructor
    · rintro (hnew | ⟨hfield, hdeclared⟩)
      · exact Or.inr (Or.inl hnew)
      · by_cases hold : role ∈ r.inherited m
        · exact Or.inl (hdeclared hold)
        · exact Or.inr (Or.inr ⟨hfield, hold⟩)
    · rintro (hdeclared | hnew | ⟨hfield, hold⟩)
      · exact Or.inr ⟨hr.field hdeclared, fun _ => hdeclared⟩
      · exact Or.inl hnew
      · exact Or.inr ⟨hfield, fun hmem => (hold hmem).elim⟩
  · have hconsistent : r'.Consistent :=
      (allOrNothing_setBase (consistent_of_reached hreached) template base).ok_of_answer hok
    obtain ⟨t, fT, g, htemplate, hfT, hg, hkeys, -⟩ := hconsistent.instance_fields hpath
    obtain rfl : t = template := by
      rw [Repository.template?_datatype hd'] at htemplate
      rw [← Option.some.inj htemplate, ht', ht]
    obtain rfl := Option.some.inj (hfT.symm.trans hfields)
    exact ⟨g, hg, hkeys⟩

/-- A structure keeps a role of its old base if the base has lost it in between. -/
theorem leftover_role :
    let r := Operation.run (initial ⟨4, 4⟩)
      [.newStruct "A" [.member ⟨"a", Atom.long.template, [], []⟩], .newStruct "S" [.type ⟨21⟩],
        .repository (.removeMember ⟨21⟩ "a")]
    Reached Operation.perform Operation.KeepsInstances (initial ⟨4, 4⟩) r ∧
      ((setBase ⟨22⟩ none).run r).answer = .ok () ∧
      ((setBase ⟨22⟩ none).run r).repo.fields? ⟨22⟩ = some ⟨[("a", .accessor "a")]⟩ ∧
      r.canonicalModel ⟨22⟩ = .ok ⟨22⟩ ∧ ¬ r.Declares ⟨22⟩ "a" := by
  intro r
  refine ⟨?_, by decide +kernel, by decide +kernel, by decide +kernel, ?_⟩
  · simp only [r, Operation.run, List.foldl_cons, List.foldl_nil]
    exact .next (.next (.next .start trivial) trivial) trivial
  · show ¬ (r.entriesOf ⟨22⟩).any (Entry.declares "a") = true
    decide +kernel

/-- Of the roles of a structure that gets another base, those stay that it declares, and those that
the old base has lost. -/
theorem roles_of_setBase_square :
    let r := Operation.run (initial ⟨4, 4⟩)
      [.newStruct "A" [.member ⟨"a", Atom.long.template, [], []⟩,
          .member ⟨"b", Atom.long.template, [], []⟩],
        .newStruct "B" [.member ⟨"c", Atom.long.template, [], []⟩],
        .newStruct "S" [.type ⟨21⟩, .member ⟨"d", Atom.long.template, [], []⟩],
        .repository (.newInstance ⟨23⟩ "s" false), .repository (.removeMember ⟨21⟩ "a")]
    ((setBase ⟨23⟩ (some ⟨22⟩)).run r).answer = .ok () ∧
      ((setBase ⟨23⟩ (some ⟨22⟩)).run r).repo.fields? ⟨24⟩ = some
        ⟨[("a", .accessor "s.a"), ("d", .accessor "s.d"), ("c", .accessor "s.c")]⟩ ∧
      let r' := ((setBase ⟨23⟩ (some ⟨22⟩)).run r).repo
      ∃ m target f, r.canonicalModel ⟨23⟩ = .ok m ∧
        (some ⟨22⟩ : Option ObjectId).mapM (structTarget (r.label ⟨23⟩) · r) = .ok target ∧
        r'.fields? ⟨23⟩ = some f ∧
        (∀ role, role ∈ f.keys ↔ r.Declares m role ∨ role ∈ target.elim [] r.rolesOf ∨
          role ∈ r.rolesOf ⟨23⟩ ∧ role ∉ r.inherited m) ∧
        (Reached Operation.perform Operation.KeepsInstances (initial ⟨4, 4⟩) r →
          ∀ id path, (r'.registryOf? m).bind (·.get? id) = some path →
            ∃ g, r'.fields? id = some g ∧ g.keys = f.keys) := by
  intro r
  have hok : ((setBase ⟨23⟩ (some ⟨22⟩)).run r).answer = .ok () := by decide +kernel
  have hfields : ((setBase ⟨23⟩ (some ⟨22⟩)).run r).repo.fields? ⟨24⟩ = some
      ⟨[("a", .accessor "s.a"), ("d", .accessor "s.d"), ("c", .accessor "s.c")]⟩ := by
    decide +kernel
  have hreached : Reached Operation.perform Operation.KeepsMembers (initial ⟨4, 4⟩) r := by
    simp only [r, Operation.run, List.foldl_cons, List.foldl_nil]
    exact .next (.next (.next (.next (.next .start trivial) trivial) trivial) trivial) trivial
  clear_value r
  exact ⟨hok, hfields, roles_of_setBase hreached hok⟩

end Metamodel.Idl
