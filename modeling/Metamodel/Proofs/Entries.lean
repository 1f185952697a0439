import Metamodel.Declaration
import Metamodel.Proofs.Lookup

/-!
# Metamodel.Proofs.Entries -- declaration lists and their edits

A member is defined in the place of the one with its role or at the end, members of a role are
removed, and a base is exchanged. Main statements: which roles are declared after each edit, and
that the base stays the only reference to a datatype if it has been before.
-/

namespace Metamodel.Entry

variable {entries : List Entry} {member : Member} {role : String}

theorem declares_eq_true_iff {e : Entry} :
    e.declares role = true ↔ ∃ m, e = .member m ∧ m.role = role := by
  cases e with
  | member m => simp [declares, member?]
  | _ => simp [declares, member?]

theorem isSome_find? (role : String) (entries : List Entry) :
    (find? role entries).isSome = entries.any (declares role) := by
  induction entries with
  | nil => rfl
  | cons entry rest ih =>
    have ih : (rest.findSome? fun e => e.member?.filter fun m => m.role == role).isSome =
        rest.any (declares role) := ih
    rw [find?, List.findSome?_cons, List.any_cons]
    cases hmember : entry.member? with
    | none => simpa [declares, hmember] using ih
    | some member =>
      cases hrole : member.role == role with
      | false => simpa [declares, hmember, Option.filter, hrole] using ih
      | true => simp [declares, hmember, Option.filter, hrole]

/-! ## Roles -/

/-- Defining a member declares its role, and changes nothing about the others. -/
theorem any_declares_define_iff :
    (define member entries).any (declares role) = true ↔
      role = member.role ∨ entries.any (declares role) = true := by
  have hrole : ∀ m : Member, (Entry.member m).declares role = true ↔ role = m.role := by
    intro m
    show (m.role == role) = true ↔ role = m.role
    rw [beq_iff_eq, eq_comm]
  induction entries with
  | nil => simpa [define] using hrole member
  | cons first rest ih =>
    rw [define]
    split
    · next hfirst =>
      -- What the first entry declares is the role of the member.
      obtain ⟨other, rfl, hother⟩ := declares_eq_true_iff.mp hfirst
      rw [List.any_cons, List.any_cons, Bool.or_eq_true, Bool.or_eq_true, hrole, hrole, hother,
        ← or_assoc, or_self]
    · rw [List.any_cons, List.any_cons, Bool.or_eq_true, Bool.or_eq_true, or_left_comm]
      exact or_congr_right ih

theorem any_declares_remove (role : String) (entries : List Entry) :
    (remove role entries).any (declares role) = false := by
  simp [remove]

theorem any_declares_remove_of_ne {k : String} (hne : role ≠ k) :
    (remove role entries).any (declares k) = entries.any (declares k) := by
  have hkept : ∀ e : Entry, e.declares k = true → (!e.declares role) = true := by
    intro e he
    obtain ⟨m, rfl, rfl⟩ := declares_eq_true_iff.mp he
    simpa [declares, member?] using Ne.symm hne
  rw [Bool.eq_iff_iff, List.any_eq_true, List.any_eq_true]
  constructor
  · rintro ⟨e, hmem, he⟩
    exact ⟨e, (List.mem_filter.mp hmem).1, he⟩
  · rintro ⟨e, hmem, he⟩
    exact ⟨e, List.mem_filter.mpr ⟨hmem, hkept e he⟩, he⟩

/-- A base is no member. -/
theorem any_declares_rebase {base : Option ObjectId}
    (h : (rebase base entries).any (declares role) = true) :
    entries.any (declares role) = true := by
  have htail : entries.tail.any (declares role) = true → entries.any (declares role) = true := by
    cases entries with
    | nil => exact id
    | cons e rest =>
      intro h
      rw [List.tail_cons] at h
      rw [List.any_cons, h, Bool.or_true]
  have hrest : (if (base? entries).isSome then entries.tail else entries).any (declares role) =
      true → entries.any (declares role) = true := by
    split
    · exact htail
    · exact id
  cases base with
  | none => exact hrest h
  | some b =>
    refine hrest ?_
    simpa [rebase, declares, member?] using h

/-! ## Members -/

/-- The members of a declaration list, each under its role. -/
def members (entries : List Entry) : Table String Member :=
  ⟨(entries.filterMap member?).map fun m => (m.role, m)⟩

theorem values_members : (members entries).values = entries.filterMap member? := by
  simp [members, Table.values, Function.comp_def]

theorem keys_members : (members entries).keys = (entries.filterMap member?).map (·.role) := by
  simp [members, Table.keys, Function.comp_def]

theorem mem_values_members_iff : member ∈ (members entries).values ↔ .member member ∈ entries := by
  have hmember : ∀ e : Entry, e.member? = some member ↔ e = .member member := by
    intro e
    cases e <;> simp [member?]
  simp only [values_members, List.mem_filterMap, hmember, exists_eq_right]

theorem mem_keys_members_iff :
    role ∈ (members entries).keys ↔ ∃ m, .member m ∈ entries ∧ m.role = role := by
  rw [keys_members, ← values_members, List.mem_map]
  exact exists_congr fun m => and_congr_left' mem_values_members_iff

theorem any_declares_iff_mem_keys :
    entries.any (declares role) = true ↔ role ∈ (members entries).keys := by
  rw [mem_keys_members_iff, List.any_eq_true]
  constructor
  · rintro ⟨e, he, hdeclares⟩
    obtain ⟨m, rfl, hrole⟩ := declares_eq_true_iff.mp hdeclares
    exact ⟨m, he, hrole⟩
  · rintro ⟨m, hm, hrole⟩
    exact ⟨_, hm, declares_eq_true_iff.mpr ⟨m, rfl, hrole⟩⟩

/-- The members are found under their roles, if these are different. -/
theorem get?_members (hnodup : (members entries).keys.Nodup) (h : .member member ∈ entries) :
    (members entries).get? member.role = some member := by
  refine Table.get?_of_mem hnodup (List.mem_map.mpr ⟨member, ?_, rfl⟩)
  rw [← values_members]
  exact mem_values_members_iff.mpr h

theorem any_declares_of_get? (h : (members entries).get? role = some member) :
    entries.any (declares role) = true :=
  any_declares_iff_mem_keys.mpr (Table.mem_keys_of_get? h)

/-- What is no member is not among them. -/
theorem members_cons {e : Entry} (he : e.member? = none) (rest : List Entry) :
    members (e :: rest) = members rest := by
  rw [members, List.filterMap_cons_none he, members]

theorem members_append {e : Entry} (he : e.member? = none) :
    members (entries ++ [e]) = members entries := by
  simp [members, List.filterMap_append, he]

/-- Members are defined as the keys of a table are bound. -/
theorem members_define :
    members (define member entries) = (members entries).insert member.role member := by
  induction entries with
  | nil => rfl
  | cons first rest ih =>
    rw [define]
    cases hfirst : first.member? with
    | none =>
      have hno : first.declares member.role = false := by simp [declares, hfirst]
      rw [if_neg (by simp [hno]), members_cons hfirst, members_cons hfirst, ih]
    | some other =>
      obtain rfl : first = .member other := by
        cases first <;> simp_all [member?]
      by_cases hrole : other.role = member.role
      · rw [if_pos (declares_eq_true_iff.mpr ⟨other, rfl, hrole⟩)]
        simp [members, member?, Table.insert, Table.put, hrole]
      · have hno : ¬ (Entry.member other).declares member.role = true := by
          simpa [declares, member?] using hrole
        rw [if_neg hno]
        have ih := congrArg Table.entries ih
        simp only [members, member?, List.filterMap_cons, List.map_cons, Table.insert, Table.put,
          hrole, if_false] at ih ⊢
        rw [ih]

theorem members_remove : members (remove role entries) = (members entries).erase role := by
  have hcons : ∀ {e : Entry} {rest}, e.declares role = false →
      remove role (e :: rest) = e :: remove role rest := fun he => by simp [remove, he]
  induction entries with
  | nil => rfl
  | cons first rest ih =>
    cases first with
    | member other =>
      have ih := congrArg Table.entries ih
      by_cases hrole : other.role = role
      · simpa [members, remove, declares, member?, Table.erase, hrole] using ih
      · simpa [members, remove, declares, member?, Table.erase, hrole] using ih
    | _ => rw [hcons rfl, members_cons rfl, members_cons rfl, ih]

/-- A base is no member. -/
theorem members_rebase {base : Option ObjectId} :
    members (rebase base entries) = members entries := by
  have hrest : members (if (base? entries).isSome then entries.tail else entries) =
      members entries := by
    cases entries with
    | nil => rfl
    | cons first rest =>
      cases first with
      | _ => rfl
  cases base with
  | none => exact hrest
  | some b => exact hrest

/-! ## Values -/

/-- A member has no value of its own, so that edits of members change none. -/
theorem scalar?_of_declares {e : Entry} (he : e.declares role = true) : e.scalar? = none := by
  obtain ⟨m, rfl, -⟩ := declares_eq_true_iff.mp he
  rfl

theorem findSome?_scalar?_define :
    (define member entries).findSome? scalar? = entries.findSome? scalar? := by
  induction entries with
  | nil => rfl
  | cons first rest ih =>
    rw [define]
    split
    · next hfirst => rw [List.findSome?_cons, List.findSome?_cons, scalar?_of_declares hfirst]; rfl
    · rw [List.findSome?_cons, List.findSome?_cons, ih]

theorem findSome?_scalar?_remove :
    (remove role entries).findSome? scalar? = entries.findSome? scalar? := by
  induction entries with
  | nil => rfl
  | cons first rest ih =>
    cases hfirst : first.declares role with
    | true =>
      have hremove : remove role (first :: rest) = remove role rest := by simp [remove, hfirst]
      rw [hremove, ih, List.findSome?_cons, scalar?_of_declares hfirst]
    | false =>
      have hremove : remove role (first :: rest) = first :: remove role rest := by
        simp [remove, hfirst]
      rw [hremove, List.findSome?_cons, List.findSome?_cons, ih]

theorem findSome?_scalar?_rebase {base : Option ObjectId} :
    (rebase base entries).findSome? scalar? = entries.findSome? scalar? := by
  have hrest : (if (base? entries).isSome then entries.tail else entries).findSome? scalar? =
      entries.findSome? scalar? := by
    cases entries with
    | nil => rfl
    | cons first rest =>
      cases first with
      | _ => rfl
  cases base with
  | none => exact hrest
  | some b => exact hrest

/-! ## Bases -/

/-- Only the first entry refers to a datatype. -/
def Headed (entries : List Entry) : Prop :=
  ∀ e ∈ entries.tail, e.target? = none

theorem base?_eq_none (h : ∀ e ∈ entries, e.target? = none) : base? entries = none := by
  cases entries with
  | nil => rfl
  | cons first rest =>
    cases first with
    | type target => simpa [target?] using h _ List.mem_cons_self
    | _ => rfl

theorem base?_define : base? (define member entries) = base? entries := by
  cases entries with
  | nil => rfl
  | cons first rest =>
    rw [define]
    split
    · next hfirst =>
      obtain ⟨other, rfl, -⟩ := declares_eq_true_iff.mp hfirst
      rfl
    · cases first with
      | _ => rfl

theorem mem_define {e : Entry} (h : e ∈ define member entries) :
    e = .member member ∨ e ∈ entries := by
  induction entries with
  | nil => simpa [define] using h
  | cons first rest ih =>
    rw [define] at h
    split at h
    · exact (List.mem_cons.mp h).imp_right (List.mem_cons_of_mem first)
    · rcases List.mem_cons.mp h with rfl | h
      · exact Or.inr List.mem_cons_self
      · exact (ih h).imp_right (List.mem_cons_of_mem first)

theorem mem_rebase {base : Option ObjectId} {e : Entry} (h : e ∈ rebase base entries) :
    (∃ b, e = .type b) ∨ e ∈ entries := by
  have hrest : e ∈ (if (base? entries).isSome then entries.tail else entries) → e ∈ entries := by
    intro he
    split at he
    · exact List.mem_of_mem_tail he
    · exact he
  cases base with
  | none => exact Or.inr (hrest h)
  | some b => exact (List.mem_cons.mp h).imp (fun he => ⟨b, he⟩) hrest

theorem Headed.define (h : Headed entries) : Headed (define member entries) := by
  cases entries with
  | nil => simp [Headed, Entry.define]
  | cons first rest =>
    rw [Entry.define]
    split
    · exact h
    · intro e he
      rcases mem_define he with rfl | he
      · rfl
      · exact h e he

theorem Headed.remove (h : Headed entries) : Headed (remove role entries) := by
  cases entries with
  | nil => exact h
  | cons first rest =>
    intro e he
    refine h e (List.mem_filter (p := fun e => !e.declares role) |>.mp ?_).1
    unfold Entry.remove at he
    rw [List.filter_cons] at he
    split at he
    · exact he
    · exact List.mem_of_mem_tail he

theorem base?_remove (h : Headed entries) : base? (remove role entries) = base? entries := by
  cases entries with
  | nil => rfl
  | cons first rest =>
    cases first with
    | member other =>
      -- The members that follow refer to nothing.
      have hall : ∀ e ∈ Entry.member other :: rest, e.target? = none :=
        List.forall_mem_cons.mpr ⟨rfl, h⟩
      have hkept : ∀ e ∈ remove role (.member other :: rest), e.target? = none := fun e he =>
        hall e (List.mem_filter.mp he).1
      rw [base?_eq_none hall, base?_eq_none hkept]
    | _ => rfl

/-- What follows the base refers to nothing. -/
theorem Headed.rest (h : Headed entries) :
    ∀ e ∈ if (base? entries).isSome then entries.tail else entries, e.target? = none := by
  split
  · exact h
  · next hbase =>
    cases entries with
    | nil => simp
    | cons first rest =>
      refine List.forall_mem_cons.mpr ⟨?_, h⟩
      cases first with
      | type target => simp [base?] at hbase
      | _ => rfl

theorem base?_rebase {base : Option ObjectId} (h : Headed entries) :
    base? (rebase base entries) = base := by
  cases base with
  | none => exact base?_eq_none h.rest
  | some b => rfl

theorem Headed.rebase {base : Option ObjectId} (h : Headed entries) :
    Headed (rebase base entries) := by
  cases base with
  | none => exact fun e he => h.rest e (List.mem_of_mem_tail he)
  | some b => exact h.rest

end Metamodel.Entry
