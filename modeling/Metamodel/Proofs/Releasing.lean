import Mathlib.Data.Finset.Card
import Metamodel.Proofs.Ownership
import Metamodel.Proofs.Representation

/-!
# Metamodel.Proofs.Releasing -- exactly what a release does

`r.Without gone r'` says that `r'` is `r` without some objects: they are gone from the store and
from the registries, and nothing else has changed. Main statement: a release either fails and
changes nothing, or it leaves the repository without exactly the objects that go with the root, and
answers how many they are. The repository that is left does not depend on the order in which they
were freed.
-/

namespace Metamodel

/-! ## Tables without some of their keys -/

namespace Table

variable {κ ν : Type} [DecidableEq κ]

/-- The table without the keys of a set. -/
def without (t : Table κ ν) (ks : Finset κ) : Table κ ν :=
  ⟨t.entries.filter fun e => decide (e.1 ∉ ks)⟩

theorem get?_without (t : Table κ ν) (ks : Finset κ) (k : κ) :
    (t.without ks).get? k = if k ∈ ks then none else t.get? k := by
  obtain ⟨es⟩ := t
  show find? k (es.filter fun e => decide (e.1 ∉ ks)) = if k ∈ ks then none else find? k es
  induction es with
  | nil => simp [find?]
  | cons e rest ih =>
    by_cases he : e.1 ∈ ks
    · rw [List.filter_cons_of_neg (by simpa using he), ih]
      by_cases hk : k ∈ ks
      · simp [hk]
      · have hne : e.1 ≠ k := fun h => hk (h ▸ he)
        simp [hk, find?, hne]
    · rw [List.filter_cons_of_pos (by simpa using he)]
      by_cases hk : e.1 = k
      · simp [find?, hk, hk ▸ he]
      · simp only [find?, hk, if_false]
        exact ih

theorem not_mem_keys_without {t : Table κ ν} {ks : Finset κ} {k : κ} (hk : k ∈ ks) :
    k ∉ (t.without ks).keys := by
  rw [← get?_eq_none_iff, get?_without, if_pos hk]

@[simp] theorem without_empty (t : Table κ ν) : t.without ∅ = t := by
  simp [without]

/-- Of two lists of entries exactly those of the second one go. -/
theorem without_append {es more : List (κ × ν)} {ks : Finset κ} (hes : ∀ e ∈ es, e.1 ∉ ks)
    (hmore : ∀ e ∈ more, e.1 ∈ ks) : (Table.mk (es ++ more)).without ks = ⟨es⟩ := by
  have hkept : es.filter (fun e => decide (e.1 ∉ ks)) = es := by
    rw [List.filter_eq_self]
    exact fun e he => decide_eq_true (hes e he)
  have hgone : more.filter (fun e => decide (e.1 ∉ ks)) = [] := by
    rw [List.filter_eq_nil_iff]
    exact fun e he => by simpa using hmore e he
  rw [without, List.filter_append, hkept, hgone, List.append_nil]

/-- Keys are removed one after the other. -/
theorem erase_without (t : Table κ ν) (k : κ) (ks : Finset κ) :
    (t.erase k).without ks = t.without (Insert.insert k ks) := by
  simp only [without, erase, List.filter_filter]
  congr 1
  apply List.filter_congr
  intro e _
  by_cases hk : e.1 = k <;> simp [hk]

/-- A key that is not there need not be removed. -/
theorem erase_eq_self {t : Table κ ν} {k : κ} (hk : k ∉ t.keys) : t.erase k = t := by
  have hall : ∀ e ∈ t.entries, decide (e.1 ≠ k) = true := by
    intro e he
    rw [decide_eq_true_iff]
    rintro rfl
    exact hk (List.mem_map.mpr ⟨e, he, rfl⟩)
  show Table.mk (t.entries.filter fun e => decide (e.1 ≠ k)) = t
  rw [List.filter_eq_self.mpr hall]

end Table

namespace Repository

variable {κ : Type} {ts : TypeSystem κ} {r : Repository ts} {id : ObjectId}

/-! ## What is left when objects are freed -/

/-- `r'` is `r` without the objects of `gone`: their numbers are left empty, the registries do not
list them any more, and everything else is as it was. -/
structure Without (r : Repository ts) (gone : Finset ObjectId) (r' : Repository ts) : Prop where
  dead : ∀ x ∈ gone, r'.object? x = none
  kept : ∀ x ∉ gone, r'.object? x = r.object? x
  objects_size : r'.objects.size = r.objects.size
  models_size : r'.models.size = r.models.size
  /-- No model changes but for the objects that its registry does not list any more. -/
  model : ∀ m, r'.model? m = (r.model? m).map
    (Model.mapDatatype fun d => { d with registry := d.registry.map (·.without gone) })

theorem Without.refl (r : Repository ts) : r.Without ∅ r where
  dead := by simp
  kept _ _ := rfl
  objects_size := rfl
  models_size := rfl
  model m := by
    cases r.model? m with
    | none => rfl
    | some model => cases model <;> simp [Model.mapDatatype]

/-- No registry lists an object that is gone. -/
theorem Without.unregistered {gone : Finset ObjectId} {r' : Repository ts} (h : r.Without gone r')
    {x : ObjectId} (hx : x ∈ gone) {m : ModelId} {g : Registry} (hg : r'.registryOf? m = some g) :
    x ∉ g.keys := by
  unfold registryOf? at hg
  rw [h.model m] at hg
  cases hm : r.model? m with
  | none => simp [hm] at hg
  | some model =>
    cases model with
    | shape s => simp [hm, Model.mapDatatype, Model.registry?, Model.datatype?] at hg
    | datatype d =>
      simp only [hm, Model.mapDatatype, Model.registry?, Model.datatype?, Option.map_some,
        Option.bind_some, Option.map_eq_some_iff] at hg
      obtain ⟨g₀, -, rfl⟩ := hg
      exact Table.not_mem_keys_without hx

/-- No registry but that of its datatype lists an object, so that it may as well be taken out of
all of them. -/
theorem WellFormed.model?_free_eq_map (h : r.WellFormed) (id : ObjectId) (m : ModelId) :
    (r.free id).model? m = (r.model? m).map
      (Model.mapDatatype fun d => { d with registry := d.registry.map (·.erase id) }) := by
  rw [model?_free]
  split
  · rfl
  · next hother =>
    cases hm : r.model? m with
    | none => rfl
    | some model =>
      cases model with
      | shape s => rfl
      | datatype d =>
        have hsame : d.registry.map (·.erase id) = d.registry := by
          cases hg : d.registry with
          | none => rfl
          | some g =>
            have hkey : id ∉ g.keys := by
              intro hid
              obtain ⟨f, ho⟩ := (h.registry_keys hm hg id).mp hid
              exact hother (modelOf?_of_object? ho)
            rw [Option.map_some, Table.erase_eq_self hkey]
        simp [Model.mapDatatype, hsame]

@[simp] theorem size_objects_free (id : ObjectId) :
    (r.free id).objects.size = r.objects.size := by
  unfold free
  split
  · exact size_objects_dropObject id
  · rfl

/-- One object is freed and then the others. -/
theorem Without.free {gone : Finset ObjectId} {r' : Repository ts} (hr : r.WellFormed)
    (h : (r.free id).Without gone r') : r.Without (insert id gone) r' where
  dead x hx := by
    by_cases hgone : x ∈ gone
    · exact h.dead x hgone
    · obtain rfl | hx := Finset.mem_insert.mp hx
      · rw [h.kept x hgone, object?_free, if_pos rfl]
      · exact (hgone hx).elim
  kept x hx := by
    rw [Finset.mem_insert, not_or] at hx
    rw [h.kept x hx.2, object?_free, if_neg hx.1]
  objects_size := by rw [h.objects_size, size_objects_free]
  models_size := by rw [h.models_size, size_models_free]
  model m := by
    rw [h.model m, hr.model?_free_eq_map id m]
    cases r.model? m with
    | none => rfl
    | some model =>
      cases model with
      | shape s => rfl
      | datatype d =>
        cases hg : d.registry <;> simp [Model.mapDatatype, hg, Table.erase_without]

/-- Freeing objects that are no templates frees nothing else. -/
theorem WellFormed.without_freeAll {ids : List ObjectId} (h : r.WellFormed)
    (hids : ∀ id ∈ ids, r.NoTemplate id) : r.Without ids.toFinset (r.freeAll ids) := by
  induction ids generalizing r with
  | nil => exact .refl r
  | cons id rest ih =>
    have hid := hids id List.mem_cons_self
    -- Freeing changes registries only, so that the others are still no templates.
    have hrest : ∀ x ∈ rest, (r.free id).NoTemplate x := by
      intro x hx m d hd
      obtain ⟨d₀, _, hd₀, rfl⟩ := datatype_of_free hd
      exact hids x (List.mem_cons_of_mem id hx) m d₀ hd₀
    rw [List.toFinset_cons]
    exact Without.free h (ih (h.free hid) hrest)

end Repository

/-! ## Releases -/

namespace Step

open Repository (GoesWith Without)

variable {κ : Type} {ts : TypeSystem κ} {r : Repository ts}

/-- The possible outcomes of a release. -/
inductive Releases (r : Repository ts) (id : ObjectId) : Outcome ts Nat → Prop
  /-- There is no such object any more. -/
  | unknown : r.object? id = none → Releases r id ⟨.error (.unknownObject id), r, []⟩
  /-- The object is the template of its own model. -/
  | canonical {m : ModelId} : r.modelOf? id = some m → r.template? m = some id →
      Releases r id ⟨.error (.scope (.canonical (r.label id))), r, []⟩
  /-- The objects that go with it are freed and no registry lists them any more, and nothing else
  changes. -/
  | freed {m : ModelId} {gone : Finset ObjectId} {r' : Repository ts} : r.modelOf? id = some m →
      r.template? m ≠ some id → (∀ x, x ∈ gone ↔ r.GoesWith id x) →
      (∀ x ∈ gone, r.isLive x = true) → r.Without gone r' →
      (∀ x ∈ gone, ∀ m g, r'.registryOf? m = some g → x ∉ g.keys) →
      Releases r id ⟨.ok gone.card, r', [.released id gone.card]⟩

/-- A release in a well-formed repository has one of these outcomes. -/
theorem releases_of_wellFormed (h : r.WellFormed) (id : ObjectId) :
    Releases r id ((releaseInstance id).run r) := by
  rw [releaseInstance, run_query_bind]
  cases ho : r.object? id with
  | none =>
    have hmodel : r.modelOf id = .error (.unknownObject id) := by
      simp [Repository.modelOf, Repository.object, ho, Except.map]
    rw [hmodel]
    exact .unknown ho
  | some o =>
    have hmodel := Repository.modelOf_of_object? ho
    simp only [hmodel, run_ask_bind]
    by_cases htemplate : r.template? o.model = some id
    · rw [if_pos htemplate, run_ask_bind]
      exact .canonical (Repository.modelOf?_of_object? ho) htemplate
    · rw [if_neg htemplate, run_ask_bind]
      have hroot : r.NoTemplate id := h.noTemplate_of_modelOf hmodel htemplate
      have hlive : r.isLive id = true := Repository.isLive_iff.mpr ⟨o, ho⟩
      have hgone : ∀ x, x ∈ (r.owned id).toFinset ↔ r.GoesWith id x := by
        intro x
        rw [List.mem_toFinset, Repository.mem_owned_iff, hlive]
        simp
      have hcard : (r.owned id).length = (r.owned id).toFinset.card :=
        (List.toFinset_card_of_nodup (Repository.nodup_owned r id)).symm
      rw [hcard]
      have hwithout := h.without_freeAll fun x hx => h.noTemplate_of_owned hroot hx
      refine .freed (Repository.modelOf?_of_object? ho) htemplate hgone ?_ hwithout ?_
      · intro x hx
        exact ((hgone x).mp hx).live hlive
      · intro x hx m g hg
        exact hwithout.unregistered hx hg

end Step

/-- In every state of every run from the empty repository, and of every run of the facade, a release
either fails and changes nothing, because the object is gone or is the template of its own model, or
it frees exactly the objects that go with the root, answers how many they are, and changes nothing
else but that no registry lists them any more. -/
theorem releases_of_reached (ts : TypeSystem κ) (limits : Limits) :
    (∀ operations : List (Operation κ), ∀ id,
      let r := Operation.run (Repository.empty ts) operations
      Step.Releases r id ((Step.releaseInstance id).run r)) ∧
    (∀ operations : List Idl.Operation, ∀ id,
      let r := Idl.Operation.run (Idl.initial limits) operations
      Step.Releases r id ((Step.releaseInstance id).run r)) := by
  constructor
  · intro operations id r
    exact Step.releases_of_wellFormed (Operation.wellFormed_run ts operations) id
  · intro operations id r
    exact Step.releases_of_wellFormed (Idl.Operation.wellFormed_run limits operations) id

/-- Two collections that hold each other, one of which holds itself too, go together. -/
example :
    let r := Idl.Operation.run (Idl.initial ⟨4, 4⟩)
      [.repository (.newCollection Idl.Atom.long.template .unbounded "c" false),
        .repository (.newCollection Idl.Atom.long.template .unbounded "d" false),
        .repository (.setElement ⟨21⟩ 1 (.collection ⟨22⟩)),
        .repository (.setElement ⟨22⟩ 1 (.collection ⟨21⟩)),
        .repository (.setElement ⟨22⟩ 2 (.collection ⟨22⟩))]
    ((Step.releaseInstance ⟨21⟩).run r).answer = .ok 2 := by
  decide +kernel

end Metamodel
