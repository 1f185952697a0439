import Metamodel.Alias
import Metamodel.Proofs.Answers
import Metamodel.Proofs.WellFormed

/-!
# Metamodel.Proofs.Alias -- what a chain of aliases ends in

`seed` and `resolve` walk the same chain. Where instances of a template are no collections, both end
in the same composite, which is a template of a datatype that is no alias.
-/

namespace Metamodel.Repository

variable {κ : Type} {ts : TypeSystem κ} {r : Repository ts}

/-- A composite of a datatype that may have instances and is no alias. -/
def IsPlain (r : Repository ts) (id : ObjectId) (m : ModelId) : Prop :=
  ∃ f d, r.object? id = some (.composite m f) ∧ r.model? m = some (.datatype d) ∧
    ts.isTemplate d.kind = true ∧ ts.isAlias d.kind = false

theorem IsPlain.modelOf? {id : ObjectId} {m : ModelId} (h : r.IsPlain id m) :
    r.modelOf? id = some m := by
  obtain ⟨f, d, ho, -⟩ := h
  exact modelOf?_of_object? ho

theorem IsPlain.object? {id : ObjectId} {m : ModelId} (h : r.IsPlain id m) :
    ∃ f, r.object? id = some (.composite m f) := by
  obtain ⟨f, d, ho, -⟩ := h
  exact ⟨f, ho⟩

theorem IsPlain.datatype {id : ObjectId} {m : ModelId} (h : r.IsPlain id m) :
    ∃ d, r.model? m = some (.datatype d) ∧ ts.isTemplate d.kind = true ∧
      ts.isAlias d.kind = false := by
  obtain ⟨f, d, -, hd, htemplate, halias⟩ := h
  exact ⟨d, hd, htemplate, halias⟩

theorem IsPlain.isAlias {id : ObjectId} {m : ModelId} (h : r.IsPlain id m) :
    r.isAlias m = false := by
  obtain ⟨d, hd, -, ha⟩ := h.datatype
  rw [isAlias_datatype hd, ha]

theorem IsPlain.assertTemplateKind {id : ObjectId} {m : ModelId} (h : r.IsPlain id m) :
    r.assertTemplateKind id = .ok id := by
  obtain ⟨f, d, ho, hd, ht, -⟩ := h
  exact assertTemplateKind_eq_ok_iff.mpr ⟨rfl, m, f, d, ho, hd, ht⟩

/-- A template that is no alias is its own seed. -/
theorem IsPlain.seed {id : ObjectId} {m : ModelId} (h : r.IsPlain id m) :
    r.seed id = .ok (.plain id) := by
  unfold Repository.seed
  rw [h.assertTemplateKind]
  show r.seedWithin _ id = _
  unfold seedWithin
  simp [modelOf_eq_ok_iff.mpr h.modelOf?, h.isAlias, bind, Except.bind]

/-- A template that is no alias resolves to itself. -/
theorem IsPlain.resolve {id : ObjectId} {m : ModelId} (h : r.IsPlain id m) :
    r.resolve id = .ok ⟨[], id⟩ := by
  unfold Repository.resolve
  rw [h.assertTemplateKind]
  show r.resolveWithin _ id = _
  unfold resolveWithin
  simp [modelOf_eq_ok_iff.mpr h.modelOf?, h.isAlias, bind, Except.bind]

/-! ## One alias -/

section OneAlias

variable {id : ObjectId} {m : ModelId} (hm : r.modelOf id = .ok m)

include hm

theorem resolveWithin_zero : r.resolveWithin 0 id =
    if r.isAlias m then .error (.aliasDepth ts.limits.aliasDepth) else .ok ⟨[], id⟩ := by
  rw [resolveWithin, hm]
  rfl

theorem resolveWithin_succ (depth : Nat) : r.resolveWithin (depth + 1) id =
    if r.isAlias m then do
      let definition ← r.aliasDefinition m
      let next ← r.assertTemplateKind definition.1
      let rest ← r.resolveWithin depth next
      .ok ⟨definition.2 ++ rest.qualifiers, rest.target⟩
    else .ok ⟨[], id⟩ := by
  rw [resolveWithin, hm]
  rfl

theorem seedWithin_zero : r.seedWithin 0 id =
    if r.isAlias m then .error (.aliasDepth ts.limits.aliasDepth) else .ok (.plain id) := by
  rw [seedWithin, hm]
  rfl

theorem seedWithin_succ (depth : Nat) : r.seedWithin (depth + 1) id =
    if r.isAlias m then do
      let definition ← r.aliasDefinition m
      match definition.2 with
      | q :: _ => .ok (.nested definition.1 q)
      | [] => do
        let next ← r.assertTemplateKind definition.1
        r.seedWithin depth next
    else .ok (.plain id) := by
  rw [seedWithin, hm]
  rfl

end OneAlias

/-- The end of a chain without dimensions, by induction on its length. -/
theorem seedWithin_plain {depth : Nat} {id t : ObjectId} (hid : r.assertTemplateKind id = .ok id)
    (h : r.seedWithin depth id = .ok (.plain t)) :
    (∃ m, r.IsPlain t m) ∧ r.resolveWithin depth id = .ok ⟨[], t⟩ := by
  induction depth generalizing id with
  | zero =>
    obtain ⟨-, m, f, d, ho, hd, ht⟩ := assertTemplateKind_eq_ok_iff.mp hid
    have hm : r.modelOf id = .ok m :=
      modelOf_of_object? ho
    unfold seedWithin at h
    unfold resolveWithin
    simp only [hm, bind, Except.bind, isAlias_datatype hd] at h ⊢
    cases ha : ts.isAlias d.kind with
    | true => simp [ha] at h
    | false =>
      obtain rfl : id = t := by simpa [ha] using h
      exact ⟨⟨m, f, d, ho, hd, ht, ha⟩, by simp⟩
  | succ depth ih =>
    obtain ⟨-, m, f, d, ho, hd, ht⟩ := assertTemplateKind_eq_ok_iff.mp hid
    have hm : r.modelOf id = .ok m :=
      modelOf_of_object? ho
    unfold seedWithin at h
    unfold resolveWithin
    simp only [hm, bind, Except.bind, isAlias_datatype hd] at h ⊢
    cases ha : ts.isAlias d.kind with
    | false =>
      obtain rfl : id = t := by simpa [ha] using h
      exact ⟨⟨m, f, d, ho, hd, ht, ha⟩, by simp⟩
    | true =>
      simp only [ha, if_true] at h ⊢
      cases hdef : r.aliasDefinition m with
      | error e => simp [hdef] at h
      | ok definition =>
        obtain ⟨target, qualifiers⟩ := definition
        simp only [hdef] at h ⊢
        cases qualifiers with
        | cons q qs => simp at h
        | nil =>
          -- Without dimensions the chain goes on with the target.
          simp only at h
          cases hnext : r.assertTemplateKind target with
          | error e => simp [hnext] at h
          | ok next =>
            obtain rfl := (assertTemplateKind_eq_ok_iff.mp hnext).1
            simp only [hnext] at h ⊢
            obtain ⟨hplain, hresolve⟩ := ih hnext h
            exact ⟨hplain, by simp [hresolve]⟩

/-- What instances are copied from is a template of a datatype that is no alias. -/
theorem seed_plain {id t : ObjectId} (h : r.seed id = .ok (.plain t)) :
    (∃ m, r.IsPlain t m) ∧ r.resolve id = .ok ⟨[], t⟩ := by
  obtain ⟨x, hid, hwithin⟩ := bind_eq_ok_iff.mp h
  obtain rfl := (assertTemplateKind_eq_ok_iff.mp hid).1
  obtain ⟨hplain, hresolve⟩ := seedWithin_plain hid hwithin
  exact ⟨hplain, bind_eq_ok_iff.mpr ⟨x, hid, hresolve⟩⟩

/-- A template comes to one composite of one datatype at most. -/
theorem plain_unique {id t t' : ObjectId} {m m' : ModelId} (h : r.seed id = .ok (.plain t))
    (hm : r.IsPlain t m) (h' : r.seed id = .ok (.plain t')) (hm' : r.IsPlain t' m') :
    t = t' ∧ m = m' := by
  obtain rfl : t = t' := Seed.plain.inj (Except.ok.inj (h.symm.trans h'))
  exact ⟨rfl, Option.some.inj (hm.modelOf?.symm.trans hm'.modelOf?)⟩

/-- An instance is no alias, so that it is its own seed. -/
theorem WellFormed.seed_of_noTemplate (hr : r.WellFormed) {id t : ObjectId}
    (hno : r.NoTemplate id) (h : r.seed id = .ok (.plain t)) : t = id := by
  obtain ⟨x, hx, -⟩ := bind_eq_ok_iff.mp h
  obtain ⟨rfl, m, f, d, ho, hd, htemplate⟩ := assertTemplateKind_eq_ok_iff.mp hx
  rcases hr.instance_kind ho hd with ht | ⟨-, halias, -⟩
  · exact (hno m d hd ht.symm).elim
  · have hplain : r.IsPlain x m := ⟨f, d, ho, hd, htemplate, halias⟩
    simpa [hplain.seed, eq_comm] using h

end Metamodel.Repository
