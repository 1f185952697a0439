import Metamodel.Proofs.Rejection

/-!
# Metamodel.Proofs.Ordinals -- the ordinals of enumerators

An enumerator has the ordinal that is given, or one more than the one before. The next ordinal is
computed as soon as an enumerator has been read, whether or not it is used. Main statement: in every
state of every run, an enumeration is made exactly if its labels can be declared and each ordinal,
taken over the integers, fits and has a successor that fits; the declaration and the template then
list the labels in their order with exactly these ordinals. The largest ordinal is therefore refused
even where nothing follows it.
-/

namespace Metamodel

namespace Idl

open Step (ensures_bind ensures_query ensures_ask ensures_edit ensures_note ensures_pure)

variable {limits : Limits} {r r' : Repository (system limits)} {name label : String}
  {enumerators rest : List (String × Option Int64)} {values : List (String × Int64)}

/-! ## The ordinals that are meant -/

/-- The integer is that of a signed number of 64 bits. -/
def Fits (n : Int) : Prop :=
  Int64.minValue.toInt ≤ n ∧ n ≤ Int64.maxValue.toInt

instance (n : Int) : Decidable (Fits n) :=
  inferInstanceAs (Decidable (_ ∧ _))

theorem fits_toInt (value : Int64) : Fits value.toInt :=
  ⟨value.minValue_le_toInt, value.toInt_le⟩

/-- A number that fits is the one that it is cut down to. -/
theorem toInt_ofInt_of_fits {n : Int} (h : Fits n) : (Int64.ofInt n).toInt = n := by
  obtain ⟨hlower, hupper⟩ := h
  rw [Int64.toInt_minValue] at hlower
  rw [Int64.toInt_maxValue] at hupper
  exact Int64.toInt_ofInt_of_le hlower (by omega)

/-- Exactly the largest number has no successor that fits. -/
theorem fits_toInt_add_one_iff {value : Int64} :
    Fits (value.toInt + 1) ↔ value ≠ Int64.maxValue := by
  obtain ⟨hlower, hupper⟩ := fits_toInt value
  rw [ne_eq, ← Int64.toInt_inj, Fits]
  omega

/-- A counter goes on as an integer does, up to the largest one. -/
theorem toInt_add_one {value : Int64} (h : value ≠ Int64.maxValue) :
    (value + 1).toInt = value.toInt + 1 := by
  rw [← toInt_ofInt_of_fits (fits_toInt_add_one_iff.mpr h), Int64.ofInt_add, Int64.ofInt_toInt]
  rfl

/-- The ordinals of enumerators over the integers: as given, or one more than the one before. -/
def meantOrdinals : Int → List (String × Option Int64) → List (String × Int)
  | _, [] => []
  | next, (label, given) :: rest =>
    let ordinal := given.elim next Int64.toInt
    (label, ordinal) :: meantOrdinals (ordinal + 1) rest

theorem map_fst_meantOrdinals (next : Int) (enumerators : List (String × Option Int64)) :
    (meantOrdinals next enumerators).map (·.1) = enumerators.map (·.1) := by
  induction enumerators generalizing next with
  | nil => rfl
  | cons enumerator rest ih => simp only [meantOrdinals, List.map_cons, ih]

theorem toInt_getD (given : Option Int64) (next : Int64) :
    (given.getD next).toInt = given.elim next.toInt Int64.toInt := by
  cases given <;> rfl

/-- The values of enumerators are the ordinals that are meant, each of which has a successor, and
the labels can be declared besides those that have been seen. -/
structure Counted (next : Int) (seen : List String) (enumerators : List (String × Option Int64))
    (values : List (String × Int64)) : Prop where
  valid : ∀ e ∈ enumerators, Role.isValid e.1 = true
  unseen : ∀ e ∈ enumerators, e.1 ∉ seen
  distinct : (enumerators.map (·.1)).Nodup
  succ : ∀ e ∈ meantOrdinals next enumerators, Fits (e.2 + 1)
  exact : values.map (fun e => (e.1, e.2.toInt)) = meantOrdinals next enumerators

theorem counted_nil {next : Int} {seen : List String} :
    Counted next seen [] values ↔ values = [] := by
  constructor
  · intro h
    exact List.map_eq_nil_iff.mp h.exact
  · rintro rfl
    exact ⟨by simp, by simp, by simp, by simp [meantOrdinals], rfl⟩

/-- The first enumerator is counted, and the others after it. -/
theorem counted_cons {next : Int} {seen : List String} {given : Option Int64} :
    Counted next seen ((label, given) :: rest) values ↔
      Role.isValid label = true ∧ label ∉ seen ∧ Fits (given.elim next Int64.toInt + 1) ∧
        ∃ value later, values = (label, value) :: later ∧
          value.toInt = given.elim next Int64.toInt ∧
          Counted (given.elim next Int64.toInt + 1) (label :: seen) rest later := by
  constructor
  · intro h
    obtain ⟨hvalid, hvalids⟩ := List.forall_mem_cons.mp h.valid
    obtain ⟨hunseen, hunseens⟩ := List.forall_mem_cons.mp h.unseen
    obtain ⟨hfresh, hdistinct⟩ := List.nodup_cons.mp h.distinct
    obtain ⟨hsucc, hsuccs⟩ := List.forall_mem_cons.mp h.succ
    obtain ⟨⟨label', value⟩, later, rfl, hhead, hlater⟩ := List.map_eq_cons_iff.mp h.exact
    obtain ⟨rfl, hvalue⟩ := Prod.mk.inj hhead
    refine ⟨hvalid, hunseen, hsucc, value, later, rfl, hvalue, hvalids, fun e he => ?_, hdistinct,
      hsuccs, hlater⟩
    refine List.not_mem_cons_of_ne_of_not_mem (fun heq => hfresh ?_) (hunseens e he)
    exact List.mem_map.mpr ⟨e, he, heq⟩
  · rintro ⟨hvalid, hunseen, hsucc, value, later, rfl, hvalue, h⟩
    have hunseens : ∀ e ∈ rest, e.1 ≠ label ∧ e.1 ∉ seen := fun e he =>
      List.ne_and_not_mem_of_not_mem_cons (h.unseen e he)
    constructor
    case valid => exact List.forall_mem_cons.mpr ⟨hvalid, h.valid⟩
    case unseen => exact List.forall_mem_cons.mpr ⟨hunseen, fun e he => (hunseens e he).2⟩
    case distinct =>
      refine List.nodup_cons.mpr ⟨fun hmem => ?_, h.distinct⟩
      obtain ⟨e, he, heq⟩ := List.mem_map.mp hmem
      exact (hunseens e he).1 heq
    case succ => exact List.forall_mem_cons.mpr ⟨hsucc, h.succ⟩
    case exact => simp only [meantOrdinals, List.map_cons, hvalue, h.exact]

/-- The check of the enumerators counts as integers do. -/
theorem ordinals_eq_ok_iff {next : Int64} {seen : List String} :
    ordinals name next seen enumerators = .ok values ↔
      Counted next.toInt seen enumerators values := by
  induction enumerators generalizing next seen values with
  | nil => simp [ordinals, counted_nil, eq_comm]
  | cons enumerator rest ih =>
    obtain ⟨label, given⟩ := enumerator
    rw [ordinals, counted_cons, ← toInt_getD]
    constructor
    · intro h
      split at h
      · next hvalid =>
        split at h
        · simp at h
        · next hunseen =>
          dsimp only at h
          split at h
          · simp at h
          · next hne =>
            obtain ⟨later, hlater, heq⟩ := bind_eq_ok_iff.mp h
            obtain rfl := Except.ok.inj heq
            rw [ih, toInt_add_one hne] at hlater
            exact ⟨hvalid, hunseen, fits_toInt_add_one_iff.mpr hne, _, later, rfl, rfl, hlater⟩
      · simp at h
    · rintro ⟨hvalid, hunseen, hsucc, value, later, rfl, hvalue, h⟩
      obtain rfl := Int64.toInt_inj.mp hvalue
      have hne := fits_toInt_add_one_iff.mp hsucc
      rw [if_pos hvalid, if_neg hunseen]
      show (if _ then _ else _) = _
      rw [if_neg hne]
      rw [← toInt_add_one hne, ← ih] at h
      exact bind_eq_ok_iff.mpr ⟨later, h, rfl⟩

/-- Enumerators can be counted exactly if each ordinal fits, and its successor. -/
theorem exists_counted_iff {next : Int} :
    (∃ values, Counted next [] enumerators values) ↔
      (∀ e ∈ enumerators, Role.isValid e.1 = true) ∧ (enumerators.map (·.1)).Nodup ∧
        ∀ e ∈ meantOrdinals next enumerators, Fits e.2 ∧ Fits (e.2 + 1) := by
  constructor
  · rintro ⟨values, h⟩
    refine ⟨h.valid, h.distinct, fun e he => ⟨?_, h.succ e he⟩⟩
    rw [← h.exact] at he
    obtain ⟨value, -, rfl⟩ := List.mem_map.mp he
    exact fits_toInt value.2
  · rintro ⟨hvalid, hdistinct, hfits⟩
    refine ⟨(meantOrdinals next enumerators).map fun e => (e.1, Int64.ofInt e.2), hvalid, by simp,
      hdistinct, fun e he => (hfits e he).2, ?_⟩
    rw [List.map_map]
    refine (List.map_congr_left fun e he => ?_).trans (List.map_id _)
    exact Prod.ext rfl (toInt_ofInt_of_fits (hfits e he).1)

/-! ## The enumeration -/

/-- The datatype that has been begun lists some enumerators, and its template has their values. -/
structure Enumerated (r : Repository (system limits)) (name : String)
    (values : List (String × Int64)) (r' : Repository (system limits)) : Prop where
  begun : Begun r name .enum r'
  entries : r'.entriesOf r.nextModel = values.map fun e => .value e.1 (.int e.2)
  fields : r'.templateFields? r.nextModel = some ⟨values.map fun e => (e.1, .scalar (.int e.2))⟩

theorem Enumerated.start (hr : r.WellFormed) (name : String) :
    Enumerated r name [] (r.addTemplate name Kind.enum) where
  begun := .start hr name Kind.enum
  entries := by rw [Repository.entriesOf_addTemplate, if_pos rfl]; rfl
  fields := Repository.templateFields?_addTemplate name Kind.enum

/-- An enumerator is listed, and its value goes into the template. -/
theorem Enumerated.add (h : Enumerated r name values r') (hlabel : label ∉ values.map (·.1))
    (value : Int64) :
    (do
      Step.appendEntry r.nextObject (.value label (.int value))
      Step.updateInstances r.nextModel label (some (.scalar (.int value)))).Ensures r'
      (fun _ => Enumerated r name (values ++ [(label, value)])) fun _ _ => False := by
  have hm := h.begun.canonicalModel
  obtain ⟨-, d, hd, -⟩ := Repository.canonicalModel_eq_ok_iff.mp hm
  rw [ensures_bind]
  refine (Step.appendEntry_accepted hm (.value label (.int value)) rfl).imp ?_ fun _ _ h' => h'
  rintro _ r₁ rfl
  have hbegun := Repository.Edited.mapEntries h.begun rfl (· ++ [.value label (.int value)])
  have hd₁ := Repository.model?_mapEntries hd (· ++ [.value label (.int value)])
  refine ((updateInstances_leaf hbegun.wellFormed hd₁ label rfl).and
    (Step.updateInstances_updated hbegun.wellFormed hd₁ label _)).imp ?_ fun _ _ h' => h'.1
  rintro _ r₂ ⟨hedited, hupdated⟩
  have hfresh : label ∉ (⟨values.map fun e => (e.1, .scalar (.int e.2))⟩ :
      Table String Value).keys := by
    simpa [Table.keys, Function.comp_def] using hlabel
  constructor
  case begun => exact hbegun.trans hedited.weaken
  case entries =>
    rw [hedited.sameBut.entriesOf hd₁ (by simp), Repository.entriesOf_mapEntries hd, h.entries,
      List.map_append]
    rfl
  case fields =>
    rw [hupdated.fields, Repository.templateFields?_mapEntries h.begun.wellFormed hd, h.fields,
      Option.map_some]
    show some (Table.insert _ label _) = _
    rw [Table.insert_eq_append hfresh, List.map_append]
    rfl

/-- Enumerators with labels that are distinct are added one after the other. -/
theorem Enumerated.addAll {later : List (String × Int64)} (h : Enumerated r name values r')
    (hdistinct : ((values ++ later).map (·.1)).Nodup) :
    (Step.forEach later fun e => do
      Step.appendEntry r.nextObject (.value e.1 (.int e.2))
      Step.updateInstances r.nextModel e.1 (some (.scalar (.int e.2)))).Ensures r'
      (fun _ => Enumerated r name (values ++ later)) fun _ _ => False := by
  induction later generalizing values r' with
  | nil =>
    rw [List.append_nil]
    exact h
  | cons e later ih =>
    have hlabel : e.1 ∉ values.map (·.1) := by
      rw [List.map_append, List.nodup_append] at hdistinct
      exact fun hmem => hdistinct.2.2 _ hmem _ List.mem_cons_self rfl
    rw [List.append_cons] at hdistinct ⊢
    rw [Step.forEach, ensures_bind]
    exact (h.add hlabel e.2).imp (fun _ _ h' => ih h' hdistinct) fun _ _ h' => h'

/-- An enumeration is made exactly if its enumerators can be counted. -/
theorem newEnum_counts (hr : r.WellFormed) (name : String)
    (enumerators : List (String × Option Int64)) :
    (newEnum name enumerators).Ensures r
      (fun id r' => enumerators ≠ [] ∧ id = r.nextObject ∧
        ∃ values, Counted 0 [] enumerators values ∧ Enumerated r name values r')
      fun _ _ => enumerators = [] ∨ ¬ ∃ values, Counted 0 [] enumerators values := by
  have hzero : (0 : Int64).toInt = 0 := rfl
  simp only [newEnum, ensures_bind, ensures_query]
  refine ⟨fun values hvalues => ?_, fun e he => Or.inr ?_⟩
  · have hcounted := ordinals_eq_ok_iff.mp hvalues
    rw [hzero] at hcounted
    have hlabels : values.map (·.1) = enumerators.map (·.1) := by
      have hexact := congrArg (List.map (·.1)) hcounted.exact
      rwa [map_fst_meantOrdinals, List.map_map] at hexact
    split
    · next hnil =>
      rw [hnil] at hlabels
      exact Or.inl (List.map_eq_nil_iff.mp hlabels.symm)
    · next hne =>
      simp only [Step.newTemplate, ensures_bind, ensures_ask, ensures_edit, ensures_note,
        ensures_pure]
      have hdistinct : ((([] : List (String × Int64)) ++ values).map (·.1)).Nodup := by
        rw [List.nil_append, hlabels]
        exact hcounted.distinct
      refine ((Enumerated.start hr name).addAll hdistinct).imp ?_ fun _ _ h' => h'.elim
      intro _ r' h'
      refine ⟨fun hnil => hne ?_, trivial, values, hcounted, h'⟩
      rw [hnil] at hlabels
      exact List.map_eq_nil_iff.mp hlabels
  · rintro ⟨values, hcounted⟩
    have hok : ordinals name 0 [] enumerators = .ok values := ordinals_eq_ok_iff.mpr hcounted
    simp [hok] at he

/-- When an enumeration has been made, and what it then lists. -/
structure CountsOrdinals (enumerators : List (String × Option Int64))
    (made : Outcome (system limits) ObjectId) : Prop where
  /-- The successor of each ordinal has to fit, also of the last one. -/
  made_iff : (∃ id, made.answer = .ok id) ↔
    enumerators ≠ [] ∧ (∀ e ∈ enumerators, Role.isValid e.1 = true) ∧
      (enumerators.map (·.1)).Nodup ∧
      ∀ e ∈ meantOrdinals 0 enumerators, Fits e.2 ∧ Fits (e.2 + 1)
  /-- The declaration and the template list the labels with the ordinals that are meant. -/
  lists : ∀ {id}, made.answer = .ok id → ∃ m, ∃ values : List (String × Int64),
    values.map (fun e => (e.1, e.2.toInt)) = meantOrdinals 0 enumerators ∧
    made.repo.canonicalModel id = .ok m ∧ made.repo.kindOf? m = some .enum ∧
    made.repo.entriesOf m = values.map (fun e => .value e.1 (.int e.2)) ∧
    made.repo.fields? id = some ⟨values.map fun e => (e.1, .scalar (.int e.2))⟩

theorem newEnum_countsOrdinals (hr : r.WellFormed) (name : String)
    (enumerators : List (String × Option Int64)) :
    CountsOrdinals enumerators ((newEnum name enumerators).run r) := by
  have hcounts := newEnum_counts hr name enumerators
  constructor
  case made_iff =>
    rw [← exists_counted_iff]
    constructor
    · rintro ⟨id, hid⟩
      obtain ⟨hne, -, values, hcounted, -⟩ := hcounts.ok_of_answer hid
      exact ⟨hne, values, hcounted⟩
    · rintro ⟨hne, hcounted⟩
      cases ha : ((newEnum name enumerators).run r).answer with
      | ok id => exact ⟨id, rfl⟩
      | error e =>
        rcases hcounts.fails_of_answer ha with hnil | hno
        · exact (hne hnil).elim
        · exact (hno hcounted).elim
  case lists =>
    intro id hid
    obtain ⟨-, rfl, values, hcounted, henum⟩ := hcounts.ok_of_answer hid
    have hm := henum.begun.canonicalModel
    obtain ⟨-, d, hd, htemplate⟩ := Repository.canonicalModel_eq_ok_iff.mp hm
    refine ⟨_, values, hcounted.exact, hm, henum.begun.kindOf?_eq, henum.entries, ?_⟩
    have hfields := henum.fields
    rwa [Repository.templateFields?, Repository.template?_datatype hd, htemplate,
      Option.bind_some] at hfields

/-- In every state of every run, for every list of enumerators: an enumeration is made exactly if
there are some, their labels are role names and distinct, and each ordinal that is meant and its
successor fit. The declaration of the datatype and the fields of its template then list the labels
in their order, each with the ordinal that is meant. -/
theorem ordinals_of_run (limits : Limits) (operations : List Operation) (name : String)
    (enumerators : List (String × Option Int64)) :
    CountsOrdinals enumerators
      ((newEnum name enumerators).run (Operation.run (initial limits) operations)) :=
  newEnum_countsOrdinals (Operation.wellFormed_run limits operations) name enumerators

/-- The largest ordinal fits, and is refused although nothing follows it. -/
theorem largest_ordinal_refused :
    let r := initial ⟨4, 4⟩
    let enumerators : List (String × Option Int64) := [("A", some Int64.maxValue)]
    (enumerators ≠ [] ∧ (∀ e ∈ enumerators, Role.isValid e.1 = true) ∧
      (enumerators.map (·.1)).Nodup ∧
      ∀ e ∈ meantOrdinals 0 enumerators, Fits e.2) ∧
    ((newEnum "E" enumerators).run r).answer =
      .error (.declaration "E" (.ordinalOverflow "A")) := by
  intro r enumerators
  have hvalid : ∀ e ∈ enumerators, Role.isValid e.1 = true := by decide +kernel
  have hdistinct : (enumerators.map (·.1)).Nodup := by decide +kernel
  have hfits : ∀ e ∈ meantOrdinals 0 enumerators, Fits e.2 := by decide +kernel
  have hrefused : ((newEnum "E" enumerators).run r).answer =
      .error (.declaration "E" (.ordinalOverflow "A")) := by decide +kernel
  exact ⟨⟨List.cons_ne_nil _ _, hvalid, hdistinct, hfits⟩, hrefused⟩

end Idl

end Metamodel
