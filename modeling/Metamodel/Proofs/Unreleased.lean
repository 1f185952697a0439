import Metamodel.Proofs.Atomicity
import Metamodel.Proofs.Installing
import Metamodel.Proofs.Snapshots

/-!
# Metamodel.Proofs.Unreleased -- where nothing is released

As long as nothing is released, every object that has been made can be used, and whatever denotes
something has a snapshot. Main statement: every operation of a consistent repository keeps it so,
except for a release.
-/

namespace Metamodel

variable {κ : Type} {ts : TypeSystem κ} {r r' : Repository ts}

namespace Repository

/-- Every number that has been given to an object is still that of one. -/
structure Unreleased (r : Repository ts) : Prop where
  wellFormed : r.WellFormed
  live : ∀ {id}, id.index < r.objects.size → r.isLive id = true

namespace Unreleased

theorem hasContents (h : r.Unreleased) : r.HasContents := by
  intro id s hs
  obtain ⟨m, es, ho, -⟩ := shape_eq_ok_iff.mp hs
  exact h.live (Nat.lt_trans (h.wellFormed.element_lt hs) (index_lt_of_object? ho))

theorem step (h : r.Unreleased) (hr' : r'.WellFormed) (hpreserves : r.Preserves r')
    (hnew : ∀ {id}, r.objects.size ≤ id.index → id.index < r'.objects.size →
      r'.isLive id = true) : r'.Unreleased where
  wellFormed := hr'
  live {id} hid := by
    rcases Nat.lt_or_ge id.index r.objects.size with hold | hge
    · obtain ⟨o, ho⟩ := isLive_iff.mp (h.live hold)
      exact isLive_iff.mpr ((hpreserves id o ho).live ho)
    · exact hnew hge hid

/-- What adds no object leaves no number empty. -/
theorem keep (h : r.Unreleased) (hr' : r'.WellFormed) (hpreserves : r.Preserves r')
    (hsize : r'.objects.size = r.objects.size) : r'.Unreleased :=
  h.step hr' hpreserves fun hge hlt => by omega

theorem grew (h : r.Unreleased) (hr' : Step.Grew r r') : r'.Unreleased :=
  h.step hr'.1 hr'.2.preserves hr'.2.live_new

theorem mapEntries (h : r.Unreleased) (m : ModelId) (f : List Entry → List Entry) :
    (r.mapEntries m f).Unreleased :=
  h.keep (h.wellFormed.mapEntries m f) (preserves_mapDatatype fun _ => rfl) rfl

theorem writeField (h : r.Unreleased) (id : ObjectId) (role : String) (value : Option Value) :
    (r.writeField id role value).Unreleased :=
  h.keep (h.wellFormed.writeField id role value) (preserves_writeField id role value) (by simp)

theorem writeElement (h : r.Unreleased) (id : ObjectId) (index : Nat) (value : Value) :
    (r.writeElement id index value).Unreleased :=
  h.keep (h.wellFormed.writeElement id index value) (preserves_writeElement id index value)
    (by simp)

end Unreleased

theorem unreleased_empty : (empty ts).Unreleased where
  wellFormed := wellFormed_empty
  live hid := by simp [empty] at hid

theorem unreleased_declarative : Declarative (Unreleased : Repository ts → Prop) where
  wellFormed := Unreleased.wellFormed
  addTemplate {r} name kind h := by
    refine h.step (h.wellFormed.addTemplate name kind)
      (preserves_addTemplate h.wellFormed name kind) fun {id} hge hlt => ?_
    rw [size_objects_addTemplate] at hlt
    obtain rfl : id = r.nextObject :=
      ObjectId.eq_iff.mpr (Nat.le_antisymm (Nat.le_of_lt_succ hlt) hge)
    exact isLive_iff.mpr ⟨_, by rw [object?_addTemplate, if_pos rfl]⟩
  mapEntries m f _ h := h.mapEntries m f
  putQualifiers m qs h :=
    h.keep (h.wellFormed.putQualifiers m qs) (preserves_mapDatatype fun _ => rfl) rfl
  putScope m _ h hs :=
    h.keep (h.wellFormed.putScope m hs) (preserves_mapDatatype fun _ => rfl) rfl

theorem unreleased_growing : Growing (Unreleased : Repository ts → Prop) :=
  ⟨Unreleased.wellFormed, Unreleased.grew⟩

theorem installs_unreleased (m : ModelId) (role : String) :
    Step.Installs (fun r : Repository ts => r.Unreleased ∧ ∃ d, r.model? m = some (.datatype d))
      m role where
  wellFormed h := h.1.wellFormed
  datatype h := h.2
  made {r r'} h hmade := by
    obtain ⟨h, d, hd⟩ := h
    obtain ⟨g, hg⟩ := hmade.grew.2.datatype hd
    exact ⟨h.grew hmade.grew, _, hg⟩
  write {r r' x f v} h hmade hv ho := by
    obtain ⟨h, d, hd⟩ := h
    obtain ⟨g, hg⟩ := hmade.grew.2.datatype hd
    exact ⟨(h.grew hmade.grew).writeField x role (some v), _, by simpa using hg⟩
  erase {r x f} h ho := by
    obtain ⟨h, d, hd⟩ := h
    exact ⟨h.writeField x role none, d, by simpa using hd⟩

end Repository

namespace Idl

variable {limits : Limits} {r : Repository (system limits)}

/-- The rule under which instances follow their templates and nothing is released. -/
def Operation.Retains (r : Repository (system limits)) (operation : Operation) : Prop :=
  operation.KeepsInstances r ∧ ∀ id, operation ≠ .repository (.releaseInstance id)

theorem Operation.perform_unreleased (h : r.Unreleased) {operation : Operation}
    (hrule : operation.Retains r) : (operation.perform r).Unreleased := by
  have helement : ∀ id index,
      Step.Keeps (Repository.Unreleased : Repository (system limits) → Prop)
        (Step.element id index) := by
    refine fun id index => Step.keeps_element Repository.unreleased_growing
      (fun id index v h' hgrew _ => ?_) id index
    exact (h'.grew hgrew).writeElement id index v
  refine operation.perform_editable
    (editable_of_installs Repository.unreleased_declarative (fun m f h => h.mapEntries m f)
      Repository.installs_unreleased) ?_ h
  rintro inner rfl
  cases inner with
  | removeMember template role =>
    exact (keeps_removeMember_of_installs (fun m f h => h.mapEntries m f)
      Repository.installs_unreleased template role).repo h
  | newInstance template under owned =>
    exact (Step.keeps_newInstance Repository.unreleased_growing template under owned).repo h
  | createRoleInstance datatype role qualifiers =>
    exact (Step.keeps_createRoleInstance Repository.unreleased_growing datatype role
      qualifiers).repo h
  | newCollection content bound name owned =>
    exact (Step.keeps_newCollection Repository.unreleased_growing content bound name owned).repo h
  | element id index => exact (helement id index).repo h
  | setElement id index value =>
    exact (Step.keeps_setElement_of_element (helement id index) fun _ h' =>
      h'.writeElement id index value).repo h
  | releaseInstance id => exact (hrule.2 id rfl).elim
  | _ => exact hrule.1.elim

theorem unreleased_initial : (initial limits).Unreleased :=
  initial_of_empty Repository.unreleased_declarative Repository.unreleased_empty

theorem unreleased_of_reached (h : Reached Operation.perform Operation.Retains (initial limits) r) :
    r.Unreleased :=
  h.invariant unreleased_initial fun _ _ h' hrule => Operation.perform_unreleased h' hrule

end Idl

end Metamodel
