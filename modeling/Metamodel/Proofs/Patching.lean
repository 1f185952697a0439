import Metamodel.Proofs.Inheritance
import Metamodel.Proofs.Installing
import Metamodel.Proofs.Upholding

/-!
# Metamodel.Proofs.Patching -- what an edit of a member comes down to

An edit that succeeds puts a member into the declaration and a field into the template, each in the
place of the old one or at the end, or takes both away, or does nothing. Which of these it does, and
of what form the field is, follows from look-ups made beforehand. Main statements: an edit that
succeeds comes down to the patch that the look-ups say, and patches of other datatypes do not change
what they say.
-/

namespace Metamodel

variable {κ : Type} {ts : TypeSystem κ} {r₀ r r' r'' : Repository ts}

namespace Repository

/-! ## What is kept of a datatype -/

/-- Datatypes are what they were, but for their declarations and registries. -/
structure Redeclared (r₀ r : Repository ts) : Prop where
  wellFormed : r.WellFormed
  datatype : ∀ {m d}, r₀.model? m = some (.datatype d) →
    ∃ es g, r.model? m = some (.datatype { d with entries := es, registry := g })

namespace Redeclared

theorem refl (hr : r.WellFormed) : r.Redeclared r where
  wellFormed := hr
  datatype {_ d} hd := ⟨d.entries, d.registry, hd⟩

theorem trans (h : r₀.Redeclared r) (h' : r.Redeclared r') : r₀.Redeclared r' where
  wellFormed := h'.wellFormed
  datatype hd := by
    obtain ⟨es, g, hd₁⟩ := h.datatype hd
    obtain ⟨es', g', hd₂⟩ := h'.datatype hd₁
    exact ⟨es', g', hd₂⟩

theorem grew (h : r₀.Redeclared r) (hr' : Step.Grew r r') : r₀.Redeclared r' where
  wellFormed := hr'.1
  datatype hd := by
    obtain ⟨es, g, hd₁⟩ := h.datatype hd
    obtain ⟨g', hd₂⟩ := hr'.2.datatype hd₁
    exact ⟨es, g', hd₂⟩

theorem mapEntries (h : r₀.Redeclared r) (m : ModelId) (f : List Entry → List Entry) :
    r₀.Redeclared (r.mapEntries m f) where
  wellFormed := h.wellFormed.mapEntries m f
  datatype {n d} hd := by
    obtain ⟨es, g, hd₁⟩ := h.datatype hd
    by_cases hn : n = m
    · subst hn
      exact ⟨f es, g, model?_mapEntries hd₁ f⟩
    · exact ⟨es, g, model?_mapDatatype_datatype.mpr ⟨_, hd₁, by rw [if_neg hn]⟩⟩

theorem writeField (h : r₀.Redeclared r) (id : ObjectId) (role : String) (value : Option Value) :
    r₀.Redeclared (r.writeField id role value) where
  wellFormed := h.wellFormed.writeField id role value
  datatype hd := by simpa using h.datatype hd

theorem nameOf (h : r₀.Redeclared r) {m : ModelId} {d : Datatype κ}
    (hd : r₀.model? m = some (.datatype d)) : r.nameOf m = r₀.nameOf m := by
  obtain ⟨es, g, hd'⟩ := h.datatype hd
  simp [Repository.nameOf, hd, hd', Model.name]

end Redeclared

theorem installs_redeclared (m : ModelId) (role : String) :
    Step.Installs (fun r => r₀.Redeclared r ∧ ∃ d, r.model? m = some (.datatype d)) m role where
  wellFormed h := h.1.wellFormed
  datatype h := h.2
  made {r r'} h hmade := by
    obtain ⟨h, d, hd⟩ := h
    obtain ⟨g, hg⟩ := hmade.grew.2.datatype hd
    exact ⟨h.grew hmade.grew, _, hg⟩
  write {r r' x f v} h hmade hv ho := by
    obtain ⟨h, d, hd⟩ := h
    obtain ⟨g, hg⟩ := hmade.grew.2.datatype hd
    exact ⟨(h.grew hmade.grew).writeField x role (some v), _, by simpa using hg⟩
  erase {r x f} h ho := by
    obtain ⟨h, d, hd⟩ := h
    exact ⟨h.writeField x role none, d, by simpa using hd⟩

end Repository

/-! ## What an edit of a member comes down to -/

/-- A member is declared and installed, or is removed, or nothing is done. -/
inductive Patch where
  | keep
  | write (member : Member) (form : Form)
  | drop (role : String)

namespace Patch

/-- The declaration afterwards. -/
def entries : Patch → List Entry → List Entry
  | keep => id
  | write member _ => Entry.define member
  | drop role => Entry.remove role

/-- The patch turns one table of fields into the other. A field that is written has its form. -/
inductive Turns (r : Repository ts) : Patch → Table String Value → Table String Value → Prop where
  | keep (f : Table String Value) : Turns r keep f f
  | write {member : Member} {form : Form} (f : Table String Value) {v : Value}
      (hv : r.HasForm form v) : Turns r (write member form) f (f.insert member.role v)
  | drop (role : String) (f : Table String Value) : Turns r (drop role) f (f.erase role)

theorem Turns.preserves {patch : Patch} {f f' : Table String Value} (h : patch.Turns r f f')
    (hr' : r.Preserves r') : patch.Turns r' f f' := by
  cases h with
  | keep => exact .keep f
  | write _ hv => exact .write f (hv.preserves hr')
  | drop role => exact .drop role f

end Patch

namespace Idl

open Repository (Redeclared)

variable {limits : Limits} {r r' : Repository (system limits)} {m n : ModelId}
  {template : ObjectId}

/-- What a patch of a datatype leaves. -/
structure Patched (m : ModelId) (patch : Patch) (r r' : Repository (system limits)) : Prop where
  consistent : r'.Consistent
  upholds : Upholds r r'
  edited : r.Edited (· = m) (· = m) r'
  redeclared : r.Redeclared r'
  entries : r'.entriesOf m = patch.entries (r.entriesOf m)
  fields : ∀ {f}, r.templateFields? m = some f →
    ∃ f', r'.templateFields? m = some f' ∧ patch.Turns r' f f'

namespace Patched

variable {patch : Patch}

theorem refl (h : r.Consistent) : Patched m .keep r r where
  consistent := h
  upholds := .refl h.wellFormed
  edited := h.wellFormed.edited
  redeclared := .refl h.wellFormed
  entries := rfl
  fields hf := ⟨_, hf, .keep _⟩

/-- One datatype is patched, and the others stay as they are. -/
theorem entriesOf (h : Patched m patch r r') (hr : r.WellFormed) (n : ModelId) :
    r'.entriesOf n = (if n = m then patch else .keep).entries (r.entriesOf n) := by
  split
  · next hn => rw [hn, h.entries]
  · next hn => exact (h.edited.unedited hr).entries hn

theorem templateFields? (h : Patched m patch r r') (hr : r.WellFormed) {d : Datatype Kind}
    (hd : r.model? n = some (.datatype d)) {f : Table String Value}
    (hf : r.templateFields? n = some f) :
    ∃ f', r'.templateFields? n = some f' ∧ (if n = m then patch else .keep).Turns r' f f' := by
  split
  · next hn =>
    subst hn
    exact h.fields hf
  · next hn => exact ⟨f, by rw [h.edited.sameBut.templateFields? hr hd hn, hf], .keep f⟩

end Patched

/-! ## Edits of members -/

/-- An edit of a member of a datatype. A member is defined through the facade, which asks for a
structure or a union, or in any datatype. -/
inductive MemberEdit where
  | define (member : Member)
  | defineAny (member : Member)
  | remove (role : String)
deriving DecidableEq, Repr

namespace MemberEdit

/-- The edit of the datatype of a template. -/
def step (template : ObjectId) : MemberEdit → Step (system limits) Unit
  | define member => defineMember template member
  | defineAny member => Step.defineMember template member
  | remove role => (fun _ => ()) <$> Step.removeMember template role

/-- What the edit comes down to, as the look-ups say beforehand. -/
def patch (r : Repository (system limits)) (m : ModelId) : MemberEdit → Except Error Patch
  | define member | defineAny member => do
    let form ← r.memberForm member.datatype member.role member.qualifiers
    .ok (.write member form)
  | remove role =>
    .ok (if (r.entriesOf m).any (Entry.declares role) then .drop role else .keep)

theorem define_patched (h : r.Consistent) (hm : r.canonicalModel template = .ok m)
    (member : Member) :
    (Step.defineMember template member).Ensures r
      (fun _ r' => ∃ form, r.memberForm member.datatype member.role member.qualifiers = .ok form ∧
        Patched m (.write member form) r r') fun _ _ => True := by
  obtain ⟨-, d, hd, -⟩ := Repository.canonicalModel_eq_ok_iff.mp hm
  have hform := Step.createRoleInstance_hasForm h.wellFormed member.datatype member.role
    member.qualifiers
  have htemplate := Step.defineMember_template h.wellFormed hm member hform
    fun hpreserves hv => hv.imp fun _ hform => hform.imp_right fun hv => hv.preserves hpreserves
  have hkept : (Step.defineMember template member).Ensures r
      (fun _ r' => r.Redeclared r' ∧ ∃ d, r'.model? m = some (.datatype d)) _ :=
    Step.defineMember_installs hm (Repository.installs_redeclared m member.role)
      (fun ⟨h', _, hd'⟩ _ => ⟨h'.mapEntries m _, _, Repository.model?_mapEntries hd' _⟩)
      ⟨.refl h.wellFormed, d, hd⟩
  refine (((Step.allOrNothing_defineMember h template member).and htemplate).and hkept).imp ?_
    fun _ _ _ => trivial
  rintro _ r' ⟨⟨hconsistent, hedited, hentries, v, ⟨form, hform, hv⟩, hfields⟩, hredeclared, -⟩
  refine ⟨form, hform, hconsistent, ?_, hedited, hredeclared, hentries, fun {f} hf => ?_⟩
  · exact upholds_of_edited_members hd hedited (by rw [hentries, Entry.aliased?_define])
      (by rw [hentries, Entry.findSome?_scalar?_define])
  · exact ⟨_, by rw [hfields, hf, Option.map_some], .write f hv⟩

theorem remove_patched (h : r.Consistent) (hm : r.canonicalModel template = .ok m)
    (role : String) :
    (Step.removeMember template role).Ensures r
      (fun _ r' => Patched m
        (if (r.entriesOf m).any (Entry.declares role) then .drop role else .keep) r r')
      fun _ _ => True := by
  obtain ⟨-, d, hd, -⟩ := Repository.canonicalModel_eq_ok_iff.mp hm
  have hkept : (Step.removeMember template role).Ensures r
      (fun _ r' => r.Redeclared r' ∧ ∃ d, r'.model? m = some (.datatype d)) _ :=
    Step.removeMember_installs hm (fun _ => ⟨Repository.installs_redeclared m role,
      (Redeclared.refl h.wellFormed).mapEntries m _, _, Repository.model?_mapEntries hd _⟩)
      ⟨.refl h.wellFormed, d, hd⟩
  refine (((Step.allOrNothing_removeMember h template role).and
    (Step.removeMember_template h.wellFormed hm role)).and hkept).imp ?_ fun _ _ _ => trivial
  rintro _ r' ⟨⟨hconsistent, ⟨hundeclared, rfl⟩ | ⟨hdeclared, hedited, hentries, hfields⟩⟩,
    hredeclared, -⟩
  · rw [Repository.Declares] at hundeclared
    rw [if_neg hundeclared]
    exact .refl h
  · rw [Repository.Declares] at hdeclared
    rw [if_pos hdeclared]
    refine ⟨hconsistent, ?_, hedited, hredeclared, hentries, fun {f} hf => ?_⟩
    · exact upholds_of_edited_members hd hedited (by rw [hentries, Entry.aliased?_remove])
        (by rw [hentries, Entry.findSome?_scalar?_remove])
    · exact ⟨_, by rw [hfields, hf, Option.map_some], .drop role f⟩

/-- An edit that succeeds comes down to the patch that the look-ups say. -/
theorem step_patched (h : r.Consistent) (hm : r.canonicalModel template = .ok m)
    (edit : MemberEdit) :
    (edit.step template).Ensures r
      (fun _ r' => ∃ patch, edit.patch r m = .ok patch ∧ Patched m patch r r') fun _ _ => True := by
  have hdefine : ∀ member : Member, (Step.defineMember template member).Ensures r
      (fun _ r' => ∃ patch, (defineAny member).patch r m = .ok patch ∧ Patched m patch r r')
      fun _ _ => True := by
    refine fun member => (define_patched h hm member).imp ?_ fun _ _ h => h
    rintro _ r' ⟨form, hform, hr'⟩
    exact ⟨.write member form, bind_eq_ok_iff.mpr ⟨form, hform, rfl⟩, hr'⟩
  cases edit with
  | define member => exact defineMember_ensures (fun _ => trivial) fun _ => hdefine member
  | defineAny member => exact hdefine member
  | remove role =>
    rw [step, Step.ensures_map]
    exact (remove_patched h hm role).imp (fun _ _ hr' => ⟨_, rfl, hr'⟩) fun _ _ h => h

/-- What an edit comes down to does not depend on patches of other datatypes. -/
theorem patch_of_patched {edit : MemberEdit} {patch other : Patch} (hr : r.WellFormed)
    (hpatch : edit.patch r m = .ok patch) (h : Patched n other r r') (hne : m ≠ n) :
    edit.patch r' m = .ok patch := by
  cases edit with
  | define member | defineAny member =>
    obtain ⟨form, hform, heq⟩ := bind_eq_ok_iff.mp hpatch
    exact bind_eq_ok_iff.mpr ⟨form, h.upholds.memberForm hr hform, heq⟩
  | remove role =>
    simp only [MemberEdit.patch, (h.edited.unedited hr).entries hne]
    exact hpatch

end MemberEdit

end Idl

end Metamodel
