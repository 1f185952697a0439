import Metamodel.Proofs.Atomicity
import Metamodel.Proofs.Snapshots

/-!
# Metamodel.Proofs.Synchrony -- every instance is what a new one would be

After any number of edits each instance of a datatype has the roles of the canonical template, and
what it has for a role looks like a copy of the template's value that is made just now under the
path of the instance. This holds of instances that other templates or instances hold and of
elements of collections, for all of them are registered. Main statement: so it is in every state of
every run that changes datatypes through the facade.
-/

namespace Metamodel

variable {κ : Type} {ts : TypeSystem κ} {r : Repository ts}

open Step (cloneValue)

namespace Repository

/-- `w` looks like a copy of `v` that is made now under the path, before and after it is made; and
it has a snapshot, unless a collection has lost what its elements are made from. -/
structure LooksLikeCopy (r : Repository ts) (path : String) (v w : Value) : Prop where
  copy : ∃ copy, ((cloneValue v path true).run r).answer = .ok copy ∧
    ((cloneValue v path true).run r).repo.snapshot w =
      ((cloneValue v path true).run r).repo.snapshot copy ∧
    r.snapshot w = ((cloneValue v path true).run r).repo.snapshot copy
  image : r.HasContents → ∃ image, r.snapshot w = .ok image

/-- What follows a value that can be copied looks like a copy of it. -/
theorem Consistent.looksLikeCopy (h : r.Consistent) {path : String} {v w : Value}
    (hv : r.Copyable v) (hfollows : r.Follows path v w) : r.LooksLikeCopy path v w := by
  have hw := hfollows.denotes.2
  refine ⟨?_, fun hlive => hlive.snapshot_ok h.wellFormed h.tidy hw⟩
  obtain ⟨copy, hanswer, hcopied, -, hcopy⟩ :=
    (Step.cloneValue_copies h.orderly h.tidy hv path true).answers
  have hext := hcopied.grew.2
  have hafter : ((cloneValue v path true).run r).repo.Consistent := h.copied hcopied
  -- Afterwards both follow the value; before, what was there looked as it does afterwards.
  have heq := hafter.snapshot_eq (hfollows.preserves hext.preserves) hcopy
  exact ⟨copy, hanswer, heq, (hext.snapshot_eq h.wellFormed h.tidy hw).symm.trans heq⟩

/-- Every registered instance has the fields of the template, each looking like a copy of it. -/
theorem Consistent.instance_fields (h : r.Consistent) {m : ModelId} {id : ObjectId} {path : String}
    (hpath : (r.registryOf? m).bind (·.get? id) = some path) :
    ∃ template fT f, r.template? m = some template ∧ r.fields? template = some fT ∧
      r.fields? id = some f ∧ f.keys = fT.keys ∧
      ∀ role v, fT.get? role = some v → ∃ w, f.get? role = some w ∧ r.LooksLikeCopy path v w := by
  obtain ⟨g, hg, hid⟩ := Option.bind_eq_some_iff.mp hpath
  obtain ⟨model, hm, hregistry⟩ := Option.bind_eq_some_iff.mp hg
  cases model with
  | shape s => simp [Model.registry?, Model.datatype?] at hregistry
  | datatype d =>
    obtain ⟨f, ho⟩ := h.wellFormed.composite_of_get? hm hregistry hid
    obtain ⟨fT, hT⟩ := h.wellFormed.template hm
    have hmodel : r.modelOf? id = some m := modelOf?_of_object? ho
    have hname : r.registeredName id = path := by
      simp only [registeredName, instanceName?, hmodel, Option.bind_some, hpath, Option.getD_some]
    have hfollows := h.follows_template ho hm hT
    rw [hname] at hfollows
    refine ⟨d.template, fT, f, template?_datatype hm, fields?_eq_some_iff.mpr ⟨m, hT⟩,
      fields?_eq_some_iff.mpr ⟨m, ho⟩, hfollows.keys_eq, fun role v hv => ?_⟩
    obtain ⟨w, hw, hvw⟩ := hfollows.of_get? hv
    have hcopyable := h.tidy.copyable hT (Table.mem_values_of_get? hv)
    exact ⟨w, hw, h.looksLikeCopy hcopyable hvw⟩

end Repository

namespace Idl

variable {limits : Limits}

/-- In every state reached, every live instance of a datatype has exactly the roles of its
canonical template in the same order, and the field of each role looks like a copy of the
template's field that is made in that state under the path of the instance. -/
theorem synchronized_of_reached {r : Repository (system limits)}
    (h : Reached Operation.perform Operation.KeepsInstances (initial limits) r) {m : ModelId}
    {id : ObjectId} {path : String} (hpath : (r.registryOf? m).bind (·.get? id) = some path) :
    ∃ template fT f, r.template? m = some template ∧ r.fields? template = some fT ∧
      r.fields? id = some f ∧ f.keys = fT.keys ∧
      ∀ role v, fT.get? role = some v → ∃ w, f.get? role = some w ∧ r.LooksLikeCopy path v w :=
  (consistent_of_reached h).instance_fields hpath

/-- An instance of a line has its start, a point, and looks like a copy of the template also where
the point has got a coordinate after the instance was made. -/
theorem synchronized_line :
    let r := Operation.run (initial ⟨4, 4⟩)
      [.newStruct "Point" [], .newStruct "Line" [.member ⟨"start", ⟨21⟩, [], []⟩],
        .repository (.newInstance ⟨22⟩ "line" false),
        .defineMember ⟨21⟩ ⟨"x", Atom.long.template, [], []⟩]
    (r.registryOf? ⟨22⟩).bind (·.get? ⟨25⟩) = some "line" ∧
      (r.registryOf? ⟨21⟩).bind (·.get? ⟨24⟩) = some "line.start" ∧
      r.fields? ⟨24⟩ = some ⟨[("x", .accessor "line.start.x")]⟩ ∧
      ∃ template fT f, r.template? ⟨22⟩ = some template ∧ r.fields? template = some fT ∧
        r.fields? ⟨25⟩ = some f ∧ f.keys = fT.keys ∧
        ∀ role v, fT.get? role = some v → ∃ w, f.get? role = some w ∧
          r.LooksLikeCopy "line" v w := by
  intro r
  have hline : (r.registryOf? ⟨22⟩).bind (·.get? ⟨25⟩) = some "line" := by decide +kernel
  have hstart : (r.registryOf? ⟨21⟩).bind (·.get? ⟨24⟩) = some "line.start" := by decide +kernel
  have hx : r.fields? ⟨24⟩ = some ⟨[("x", .accessor "line.start.x")]⟩ := by decide +kernel
  have hreached : Reached Operation.perform Operation.KeepsInstances (initial ⟨4, 4⟩) r := by
    simp only [r, Operation.run, List.foldl_cons, List.foldl_nil]
    exact .next (.next (.next (.next .start trivial) trivial) trivial) trivial
  clear_value r
  exact ⟨hline, hstart, hx, synchronized_of_reached hreached hline⟩

end Idl

end Metamodel
