import Mathlib.Order.Bounds.Basic
import Metamodel.Proofs.Lasting
import Metamodel.Proofs.Representation
import Metamodel.Proofs.Termination

/-!
# Metamodel.Proofs.Remembering -- what is known of a collection throughout a run

The shape of a collection is given when it is made. Its elements are made on first access, between
the copies and releases of everything else, and stay until they are overwritten. Main statement: in
every state of every run, an index is out of bounds exactly if it is zero or above the capacity, and
the length of a collection that holds data is the run of its occupied indices; and in every later
state the collection has its shape, an element that has been answered is answered again and nothing
is done for it, unless it has been overwritten, and the length has not decreased.
-/

namespace Metamodel

variable {κ : Type} {ts : TypeSystem κ} {r r' r'' : Repository ts} {c : ObjectId} {s : Shape}
  {index : Nat}

/-! ## The run of occupied indices -/

/-- The numbers from 0 on that have a property in a row, as far as there are any below `n`. -/
theorem length_takeWhile_range (p : Nat → Bool) (n : Nat) :
    let run := ((List.range n).takeWhile p).length
    run ≤ n ∧ (∀ i < run, p i = true) ∧ (run < n → p run = false) := by
  induction n with
  | zero => simp
  | succ n ih =>
    obtain ⟨hle, hall, hend⟩ := ih
    intro run
    rcases Nat.lt_or_eq_of_le hle with hlt | heq
    · -- The run has ended before `n`.
      have hrun : run = ((List.range n).takeWhile p).length := by
        simp only [run, List.range_succ, List.takeWhile_append, List.length_range, hlt.ne, if_false]
      rw [hrun]
      exact ⟨Nat.le_succ_of_le hle, hall, fun _ => hend hlt⟩
    · have hrun : run = n + if p n then 1 else 0 := by
        simp only [run, List.range_succ, List.takeWhile_append, List.length_range, heq, if_true,
          List.length_append]
        cases hp : p n <;> simp [hp]
      rw [heq] at hall
      cases hp : p n with
      | false =>
        rw [hp] at hrun
        exact ⟨by simp [hrun], by simpa [hrun] using hall, fun _ => by simpa [hrun] using hp⟩
      | true =>
        rw [hp, if_pos rfl] at hrun
        refine ⟨Nat.le_of_eq hrun, fun i hi => ?_, fun hlt => by omega⟩
        rcases Nat.lt_or_eq_of_le (Nat.le_of_lt_succ (hrun ▸ hi)) with hi | rfl
        · exact hall i hi
        · exact hp

/-- As many indices are occupied as there are keys. -/
theorem le_size_of_occupied {es : Table Nat Value} {n : Nat}
    (h : ∀ i, 0 < i → i ≤ n → ∃ v, es.get? i = some v) : n ≤ es.size := by
  have hnodup : ((List.range n).map (· + 1)).Nodup :=
    List.Nodup.map (fun _ _ h => Nat.succ.inj h) List.nodup_range
  have hsub : (List.range n).map (· + 1) ⊆ es.keys := by
    intro k hk
    obtain ⟨i, hi, rfl⟩ := List.mem_map.mp hk
    exact Table.mem_keys_iff.mpr (h _ (Nat.succ_pos i) (List.mem_range.mp hi))
  simpa [Table.keys, Table.size] using (hnodup.subperm hsub).length_le

/-- The length is the largest number up to which all indices are occupied. -/
theorem occupiedRun_isGreatest (es : Table Nat Value) :
    IsGreatest {n | ∀ i, 0 < i → i ≤ n → ∃ v, es.get? i = some v} (occupiedRun es) := by
  obtain ⟨-, hall, hend⟩ := length_takeWhile_range (fun i => es.contains (i + 1)) es.size
  constructor
  · intro i hpos hi
    have hi' := hall (i - 1) (by unfold occupiedRun at hi; omega)
    rw [Nat.sub_add_cancel hpos] at hi'
    exact Option.isSome_iff_exists.mp hi'
  · intro n hn
    by_contra hlt
    obtain ⟨v, hv⟩ := hn (occupiedRun es + 1) (Nat.succ_pos _) (by omega)
    have hsize := le_size_of_occupied hn
    have hno : es.contains (occupiedRun es + 1) = false :=
      hend (by unfold occupiedRun at hlt; omega)
    simp [Table.contains, hv] at hno

/-! ## Collections that stay as they are -/

namespace Repository

/-- Every collection of `r` has its shape and its elements in `r'`, or has been released, and those
that are new have no elements. -/
structure KeepsCollections (r r' : Repository ts) : Prop where
  objects_le : r.objects.size ≤ r'.objects.size
  shape : ∀ {m s}, r.model? m = some (.shape s) → r'.model? m = some (.shape s)
  /-- What is there still was there before, and is the same collection as it was or none at all. -/
  old : ∀ {c o'}, c.index < r.objects.size → r'.object? c = some o' →
    ∃ o, r.object? c = some o ∧ ∀ m es, o' = .collection m es ↔ o = .collection m es
  new : ∀ {c m es}, r.objects.size ≤ c.index → r'.object? c = some (.collection m es) →
    es = Table.empty

namespace KeepsCollections

/-- It is enough that nothing new is there. -/
theorem of_object? (hsize : r.objects.size ≤ r'.objects.size)
    (hshape : ∀ {m s}, r.model? m = some (.shape s) → r'.model? m = some (.shape s))
    (hobject : ∀ {c o'}, r'.object? c = some o' →
      ∃ o, r.object? c = some o ∧ ∀ m es, o' = .collection m es ↔ o = .collection m es) :
    r.KeepsCollections r' where
  objects_le := hsize
  shape := hshape
  old _ ho := hobject ho
  new hc ho' := by
    obtain ⟨o, ho, -⟩ := hobject ho'
    have := index_lt_of_object? ho
    omega

theorem mapDatatype (m : ModelId) (f : Datatype κ → Datatype κ) :
    r.KeepsCollections (r.mapDatatype m f) :=
  of_object? (Nat.le_refl _) model?_mapDatatype_shape.mpr fun ho => ⟨_, ho, fun _ _ => Iff.rfl⟩

theorem writeField (id : ObjectId) (role : String) (value : Option Value) :
    r.KeepsCollections (r.writeField id role value) := by
  refine of_object? (by simp) (by simp) fun {c o'} ho' => ?_
  cases o' with
  | composite m f' =>
    obtain ⟨f, ho, -⟩ := composite_writeField.mp ho'
    exact ⟨_, ho, fun _ _ => by simp⟩
  | collection m es => exact ⟨_, collection_writeField.mp ho', fun _ _ => Iff.rfl⟩

theorem free (id : ObjectId) : r.KeepsCollections (r.free id) := by
  refine of_object? (steady_free id).objects_le model?_free_shape.mpr fun {c o'} ho' => ?_
  rw [object?_free] at ho'
  split at ho'
  · simp at ho'
  · exact ⟨_, ho', fun _ _ => Iff.rfl⟩

theorem of_extends (h : r.Extends r') : r.KeepsCollections r' where
  objects_le := h.objects_le
  shape := h.shape
  old hc ho := ⟨_, h.object? hc ▸ ho, fun _ _ => Iff.rfl⟩
  new hc ho := h.empty_new ho hc

theorem addTemplate (name : String) (kind : κ) : r.KeepsCollections (r.addTemplate name kind) where
  objects_le := by simp
  shape hs := by rw [model?_addTemplate, if_neg (ne_nextModel hs), hs]
  old {c o'} hc ho' := by
    have hne : c ≠ r.nextObject := by
      rintro rfl
      exact Nat.lt_irrefl _ hc
    rw [object?_addTemplate, if_neg hne] at ho'
    exact ⟨_, ho', fun _ _ => Iff.rfl⟩
  new {c m es} hc ho' := by
    rw [object?_addTemplate] at ho'
    split at ho'
    · simp at ho'
    · have := index_lt_of_object? ho'
      omega

end KeepsCollections

/-- A property that is lost only by overwriting elements that are not among those given. -/
structure Remembering (written : ObjectId → Nat → Value → Prop) (P : Repository ts → Prop) :
    Prop where
  wellFormed : ∀ {r}, P r → r.WellFormed
  keeps : ∀ {r r'}, P r → r'.WellFormed → r.KeepsCollections r' → P r'
  /-- An element is made at an index that is admitted and not occupied. -/
  make : ∀ {r c s index} v, P r → r.shape c = .ok s → s.Admits index →
    (r.elements? c).bind (·.get? index) = none → P (r.writeElement c index v)
  overwrite : ∀ {r c s index v}, P r → r.shape c = .ok s → s.Admits index →
    (∃ w, (r.elements? c).bind (·.get? index) = some w) → written c index v →
      P (r.writeElement c index v)

variable {written : ObjectId → Nat → Value → Prop} {P : Repository ts → Prop}

theorem Remembering.mono {written' : ObjectId → Nat → Value → Prop} (hP : Remembering written P)
    (hwritten : ∀ c i v, written' c i v → written c i v) : Remembering written' P :=
  { hP with
    overwrite := fun h hs hadmits hw hv => hP.overwrite h hs hadmits hw (hwritten _ _ _ hv) }

theorem Remembering.and {Q : Repository ts → Prop} (hP : Remembering written P)
    (hQ : Remembering written Q) : Remembering written fun r => P r ∧ Q r where
  wellFormed h := hP.wellFormed h.1
  keeps h hr' hkeeps := ⟨hP.keeps h.1 hr' hkeeps, hQ.keeps h.2 hr' hkeeps⟩
  make v h hs hadmits hnone := ⟨hP.make v h.1 hs hadmits hnone, hQ.make v h.2 hs hadmits hnone⟩
  overwrite h hs hadmits hw hwritten :=
    ⟨hP.overwrite h.1 hs hadmits hw hwritten, hQ.overwrite h.2 hs hadmits hw hwritten⟩

theorem Remembering.firm (hP : Remembering written P) : Firm P where
  wellFormed := hP.wellFormed
  grew h hgrew := hP.keeps h hgrew.1 (.of_extends hgrew.2)
  addTemplate name kind h :=
    hP.keeps h ((hP.wellFormed h).addTemplate name kind) (.addTemplate name kind)
  mapEntries m f _ h := hP.keeps h ((hP.wellFormed h).mapEntries m f) (.mapDatatype m _)
  annotate m f _ h := hP.keeps h ((hP.wellFormed h).mapEntries m f) (.mapDatatype m _)
  putQualifiers m qs h := hP.keeps h ((hP.wellFormed h).putQualifiers m qs) (.mapDatatype m _)
  putScope m _ h hs := hP.keeps h ((hP.wellFormed h).putScope m hs) (.mapDatatype m _)
  writeField id role value h :=
    hP.keeps h ((hP.wellFormed h).writeField id role value) (.writeField id role value)

end Repository

namespace Step

open Repository (Remembering)

variable {written : ObjectId → Nat → Value → Prop} {P : Repository ts → Prop} {v : Value}

/-! ## Elements -/

/-- The collection has an element at an index that is admitted. -/
structure Stored (r : Repository ts) (c : ObjectId) (index : Nat) (v : Value) : Prop where
  admitted : ∃ s, r.shape c = .ok s ∧ s.Admits index
  value : (r.elements? c).bind (·.get? index) = some v

/-- An element that is there is answered, and nothing is done. -/
theorem Stored.run_element (h : Stored r c index v) : (element c index).run r = ⟨.ok v, r, []⟩ := by
  obtain ⟨s, hs, hadmits⟩ := h.admitted
  have hin : ¬ (index = 0 ∨ s.capacity.any (· < index) = true) := fun hout =>
    Shape.not_admits_iff.mpr hout hadmits
  rw [element, run_query_bind, hs]
  show Step.run (if _ then _ else _) r = _
  rw [if_neg hin, run_ask_bind, h.value]
  rfl

/-- What is written at an index that is admitted is stored. -/
theorem stored_writeElement (hs : r.shape c = .ok s) (hadmits : s.Admits index) (v : Value) :
    Stored (r.writeElement c index v) c index v := by
  obtain ⟨m, es, ho, -⟩ := Repository.shape_eq_ok_iff.mp hs
  refine ⟨⟨s, Repository.shape_writeElement.mpr hs, hadmits⟩, ?_⟩
  rw [Repository.elements?_writeElement, Repository.elements?_eq_some_iff.mpr ⟨m, ho⟩,
    Option.map_some, if_pos rfl, Option.bind_some, Table.get?_insert, if_pos rfl]

/-- What is answered for an element is stored. -/
theorem element_remembers (hP : Remembering written P) (h : P r) (c : ObjectId) (index : Nat) :
    (element c index).Ensures r (fun v r' => P r' ∧ Stored r' c index v) fun _ => P := by
  cases hs : r.shape c with
  | error e =>
    simp only [element, ensures_bind, ensures_query, hs]
    exact ⟨fun s hs' => by simp at hs', fun _ _ => h⟩
  | ok s =>
    apply ensures_element hs
    case hbounds => exact fun _ => h
    case hpresent => exact fun v hadmits hv => ⟨h, ⟨s, hs, hadmits⟩, hv⟩
    case hcontent => exact fun _ _ => h
    case hmake =>
      intro content hadmits hnone _
      refine (cloneValue_makes (hP.wellFormed h) content _ _).imp ?_ fun _ _ h' =>
        hP.keeps h h'.1 (.of_extends h'.2)
      rintro v r' ⟨hgrew, -⟩
      have hs' : r'.shape c = .ok s := hgrew.2.shape_ok hs
      refine ⟨hP.make v (hP.keeps h hgrew.1 (.of_extends hgrew.2)) hs' hadmits ?_,
        stored_writeElement hs' hadmits v⟩
      obtain ⟨m, es, ho, -⟩ := Repository.shape_eq_ok_iff.mp hs
      rwa [hgrew.2.elements? (Repository.index_lt_of_object? ho)]

/-- An element is overwritten where there is one, and only by a call that succeeds. -/
theorem setElement_remembers (hP : Remembering written P) (h : P r) (c : ObjectId) (index : Nat)
    (v : Value) :
    (setElement c index v).Ensures r
      (fun _ r' => Stored r' c index v ∧ (written c index v → P r')) fun _ => P := by
  rw [setElement, ensures_bind]
  refine (element_remembers hP h c index).imp ?_ fun _ _ h' => h'
  rintro current r₁ ⟨h₁, hstored⟩
  split
  · simp only [ensures_bind, ensures_query, ensures_fail]
    exact ⟨fun _ _ => h₁, fun _ _ => h₁⟩
  · obtain ⟨s, hs, hadmits⟩ := hstored.admitted
    exact ⟨stored_writeElement hs hadmits v, hP.overwrite h₁ hs hadmits ⟨_, hstored.value⟩⟩

/-! ## Errors -/

/-- Instances and copies are not refused for an index. -/
theorem instantiate_ne_bounds (h : r.WellFormed) (owned : Bool) (depth : Nat) (id : ObjectId)
    (under : String) :
    (instantiate owned depth id under).Ensures r (fun _ _ => True)
      fun e _ => ∀ name i n, e ≠ .bounds name i n := by
  induction depth generalizing r id under with
  | zero => simp [instantiate]
  | succ depth ih =>
    apply instantiate_ensures h
    case hrefused => exact fun e he => (Repository.quiet_seed id e he).ne_bounds
    case hnested =>
      exact fun element q _ => (newCollections_quiet element q under owned).imp (fun _ _ h => h)
        fun _ _ h => h.ne_bounds
    case hleaf => exact fun _ _ _ _ _ => trivial
    case hcomposite =>
      intro t m d f _ _ _ _ _
      rw [cloneFieldsWith, ensures_bind]
      refine (ensures_mapEach (P := Grew r) (R := fun _ _ _ => True) f.entries ?_
        (grew_refl h)).imp (fun _ _ _ => trivial) fun _ _ h => h
      intro field _ r₁ h₁
      rw [ensures_bind]
      refine ((cloneWith_makes h₁.1 fun x _ => instantiate_makes h₁.1 owned depth x _).and
        (cloneWith_quiet (fun _ h => h.ne_bounds) fun x _ => ih h₁.1 x _)).imp ?_ fun _ _ h => h.2
      exact fun copy r₂ hcopy => ⟨h₁.trans hcopy.1.1, fun _ _ _ => trivial, trivial⟩

theorem cloneValue_ne_bounds (h : r.WellFormed) (value : Value) (under : String) (owned : Bool) :
    (cloneValue value under owned).Ensures r (fun _ _ => True)
      fun e _ => ∀ name i n, e ≠ .bounds name i n :=
  cloneWith_quiet (fun _ h => h.ne_bounds) fun id _ =>
    newInstance_ensures_iff.mpr (instantiate_ne_bounds h owned _ id under)

/-- An index that is admitted is not refused, whatever else may be. -/
theorem element_ne_bounds (h : r.WellFormed) (hs : r.shape c = .ok s) (hadmits : s.Admits index) :
    (element c index).Ensures r (fun _ _ => True) fun e _ => ∀ name i n, e ≠ .bounds name i n := by
  apply ensures_element hs
  case hbounds => exact fun hno => (hno hadmits).elim
  case hpresent => exact fun _ _ _ => trivial
  case hcontent =>
    have hquiet : Quiet (r.valueOf s.element) := (Repository.quiet_object s.element).map _
    exact fun e he => (hquiet e he).ne_bounds
  case hmake => exact fun content _ _ _ => cloneValue_ne_bounds h content _ _

theorem run_element_of_not_admits (hs : r.shape c = .ok s) (hno : ¬ s.Admits index) :
    (element c index).run r = ⟨.error (.bounds s.name index (s.capacity.getD 0)), r, []⟩ := by
  rw [element, run_query_bind, hs]
  show Step.run (if _ then _ else _) r = _
  rw [if_pos (Shape.not_admits_iff.mp hno)]
  rfl

end Step

/-! ## Runs -/

open Repository (Remembering)

section Runs

variable {written : ObjectId → Nat → Value → Prop} {P : Repository ts → Prop}

/-- An operation keeps what is remembered, unless it overwrites another element. -/
theorem Operation.perform_remembering (hP : Remembering written P) (h : P r)
    (operation : Operation κ)
    (hwritten : ∀ c index v, operation = .setElement c index v →
      ((Step.setElement c index v).run r).answer = .ok () → written c index v) :
    P (operation.perform r) := by
  refine operation.perform_firm hP.firm ?_ ?_ ?_ h
  · rintro c index rfl
    exact ((Step.element_remembers hP h c index).imp (fun _ _ h' => h'.1) fun _ _ h' => h').repo
  · rintro c index v rfl
    have hset := Step.setElement_remembers hP h c index v
    show P ((Step.setElement c index v).run r).repo
    cases ha : ((Step.setElement c index v).run r).answer with
    | ok u => exact (hset.ok_of_answer ha).2 (hwritten c index v rfl ha)
    | error e => exact hset.fails_of_answer ha
  · rintro id rfl
    refine (Step.keeps_releaseInstance_of hP.wellFormed (fun {r x} h hx => ?_) id).repo h
    exact hP.keeps h ((hP.wellFormed h).free hx) (.free x)

end Runs

/-! ## What is remembered -/

namespace Repository

/-- Elements are at indices only that are admitted. -/
structure Indexed (r : Repository ts) : Prop where
  wellFormed : r.WellFormed
  admits : ∀ {c s index v}, r.shape c = .ok s → (r.elements? c).bind (·.get? index) = some v →
    s.Admits index

theorem Indexed.writeElement (h : r.Indexed) (hs : r.shape c = .ok s) (hadmits : s.Admits index)
    (v : Value) : (r.writeElement c index v).Indexed := by
  refine ⟨h.wellFormed.writeElement c index v, fun {x t i w} ht hw => ?_⟩
  rw [shape_writeElement] at ht
  rcases element_writeElement hw with hold | ⟨rfl, rfl, -⟩
  · exact h.admits ht hold
  · obtain rfl := Except.ok.inj (hs.symm.trans ht)
    exact hadmits

theorem remembering_indexed : Remembering (fun _ _ _ => True) (Indexed : Repository ts → Prop) where
  wellFormed := Indexed.wellFormed
  keeps := by
    intro r r' h hr' hkeeps
    refine ⟨hr', fun {c s index v} hs hv => ?_⟩
    obtain ⟨m, es, ho, hm⟩ := shape_eq_ok_iff.mp hs
    rw [elements?_eq_some_iff.mpr ⟨m, ho⟩, Option.bind_some] at hv
    rcases Nat.lt_or_ge c.index r.objects.size with hold | hnew
    · obtain ⟨o, ho₀, hsame⟩ := hkeeps.old hold ho
      obtain rfl := (hsame m es).mp rfl
      obtain ⟨s₀, hs₀, -⟩ := h.wellFormed.collection ho₀
      have heq := (hkeeps.shape hs₀).symm.trans hm
      obtain rfl := Model.shape.inj (Option.some.inj heq)
      refine h.admits (shape_eq_ok_iff.mpr ⟨m, es, ho₀, hs₀⟩) (v := v) ?_
      rw [elements?_eq_some_iff.mpr ⟨m, ho₀⟩, Option.bind_some, hv]
    · obtain rfl := hkeeps.new hnew ho
      simp at hv
  make v h hs hadmits _ := h.writeElement hs hadmits v
  overwrite h hs hadmits _ _ := h.writeElement hs hadmits _

/-- As long as it is live, the collection has its shape, and its elements have a property. -/
structure Stays (c : ObjectId) (s : Shape) (K : Table Nat Value → Prop) (r : Repository ts) :
    Prop where
  wellFormed : r.WellFormed
  old : c.index < r.objects.size
  collection : ∀ {o}, r.object? c = some o →
    ∃ m es, o = .collection m es ∧ r.model? m = some (.shape s) ∧ K es

variable {K : Table Nat Value → Prop}

theorem Stays.of_shape (hr : r.WellFormed) (hs : r.shape c = .ok s)
    (hK : ∀ es, r.elements? c = some es → K es) : Stays c s K r := by
  obtain ⟨m, es, ho, hm⟩ := shape_eq_ok_iff.mp hs
  refine ⟨hr, index_lt_of_object? ho, fun {o} ho' => ⟨m, es, ?_, hm, ?_⟩⟩
  · exact Option.some.inj (ho'.symm.trans ho)
  · exact hK es (elements?_eq_some_iff.mpr ⟨m, ho⟩)

theorem Stays.of_isLive (h : Stays c s K r) (hlive : r.isLive c = true) :
    r.shape c = .ok s ∧ ∃ es, r.elements? c = some es ∧ K es := by
  obtain ⟨o, ho⟩ := isLive_iff.mp hlive
  obtain ⟨m, es, rfl, hm, hK⟩ := h.collection ho
  exact ⟨shape_eq_ok_iff.mpr ⟨m, es, ho, hm⟩, es, elements?_eq_some_iff.mpr ⟨m, ho⟩, hK⟩

theorem Stays.writeElement (h : Stays c s K r) {x : ObjectId} {v : Value}
    (hK : ∀ es, r.elements? x = some es → x = c → K es → K (es.insert index v)) :
    Stays c s K (r.writeElement x index v) := by
  refine ⟨h.wellFormed.writeElement x index v, by simpa using h.old, fun {o'} ho' => ?_⟩
  cases o' with
  | composite m f =>
    obtain ⟨_, _, heq, -⟩ := h.collection (composite_writeElement.mp ho')
    simp at heq
  | collection m es' =>
    obtain ⟨es, ho, rfl⟩ := collection_writeElement.mp ho'
    obtain ⟨m', es₀, heq, hm, hes⟩ := h.collection ho
    obtain ⟨rfl, rfl⟩ := Object.collection.inj heq
    refine ⟨m, _, rfl, by rwa [model?_writeElement], ?_⟩
    split
    · next hx => exact hK es (elements?_eq_some_iff.mpr ⟨m, hx ▸ ho⟩) hx.symm hes
    · exact hes

/-- What is remembered of the elements of a collection has to outlast new ones, and those that are
overwritten. -/
theorem remembering_stays {written : ObjectId → Nat → Value → Prop} (c : ObjectId) (s : Shape)
    (hmake : ∀ es i v, K es → es.get? i = none → K (es.insert i v))
    (hoverwrite : ∀ es i v, K es → written c i v → K (es.insert i v)) :
    Remembering written (Stays c s K : Repository ts → Prop) where
  wellFormed := Stays.wellFormed
  keeps := by
    intro r r' h hr' hkeeps
    refine ⟨hr', Nat.lt_of_lt_of_le h.old hkeeps.objects_le, fun {o'} ho' => ?_⟩
    obtain ⟨o, ho, hsame⟩ := hkeeps.old h.old ho'
    obtain ⟨m, es, rfl, hm, hes⟩ := h.collection ho
    exact ⟨m, es, (hsame m es).mpr rfl, hkeeps.shape hm, hes⟩
  make {r x t i} v h _ _ hnone := by
    refine h.writeElement fun es hes _ hK => hmake es i v hK ?_
    rwa [hes, Option.bind_some] at hnone
  overwrite h _ _ _ hwritten :=
    h.writeElement fun es _ hx hK => hoverwrite es _ _ hK (hx ▸ hwritten)

theorem Indexed.stored (h : r.Indexed) {v : Value} {es : Table Nat Value}
    (hs : r.shape c = .ok s) (hes : r.elements? c = some es) (hv : es.get? index = some v) :
    Step.Stored r c index v := by
  have hvalue : (r.elements? c).bind (·.get? index) = some v := by rwa [hes]
  exact ⟨⟨s, hs, h.admits hs hvalue⟩, hvalue⟩

/-- The length of a collection that holds data. -/
theorem length_of_shape {es : Table Nat Value} (hs : r.shape c = .ok s)
    (hes : r.elements? c = some es) (horigin : s.origin ≠ .template) :
    r.length c = .ok (.count (occupiedRun es)) := by
  cases ho : s.origin with
  | template => exact absurd ho horigin
  | derived source => simp [length, hs, Except.map, ho, hes]
  | free => simp [length, hs, Except.map, ho, hes]

theorem length_eq_count {n : Nat} (h : r.length c = .ok (.count n)) :
    ∃ s es, r.shape c = .ok s ∧ s.origin ≠ .template ∧ r.elements? c = some es ∧
      n = occupiedRun es := by
  cases hs : r.shape c with
  | error e => simp [length, hs, Except.map] at h
  | ok s =>
    obtain ⟨m, es, ho, -⟩ := shape_eq_ok_iff.mp hs
    have hes : r.elements? c = some es := elements?_eq_some_iff.mpr ⟨m, ho⟩
    have horigin : s.origin ≠ .template := fun ht => by simp [length, hs, Except.map, ht] at h
    rw [length_of_shape hs hes horigin] at h
    exact ⟨s, es, rfl, horigin, hes, (Length.count.inj (Except.ok.inj h)).symm⟩

/-! ## Collections in one state -/

/-- What holds of the collections in one state. -/
structure OrdersElements (r : Repository ts) : Prop where
  occupied : ∀ {c s index v}, r.shape c = .ok s → (r.elements? c).bind (·.get? index) = some v →
    s.Admits index
  refused : ∀ {c s index}, r.shape c = .ok s → ¬ s.Admits index → (Step.element c index).run r =
    ⟨.error (.bounds s.name index (s.capacity.getD 0)), r, []⟩
  /-- An index that is admitted is refused for no other bound either. -/
  inBounds : ∀ {c s index name i n}, r.shape c = .ok s → s.Admits index →
    ((Step.element c index).run r).answer ≠ .error (.bounds name i n)
  /-- The length of a collection that holds data is the largest number up to which all indices are
  occupied. -/
  length : ∀ {c s}, r.shape c = .ok s → s.origin ≠ .template → ∃ n, r.length c = .ok (.count n) ∧
    IsGreatest {n | ∀ i, 0 < i → i ≤ n → ∃ v, (r.elements? c).bind (·.get? i) = some v} n

theorem Indexed.ordersElements (h : r.Indexed) : r.OrdersElements where
  occupied := h.admits
  refused := Step.run_element_of_not_admits
  inBounds hs hadmits he :=
    (Step.element_ne_bounds h.wellFormed hs hadmits).fails_of_answer he _ _ _ rfl
  length {c s} hs horigin := by
    obtain ⟨m, es, ho, -⟩ := shape_eq_ok_iff.mp hs
    have hes : r.elements? c = some es := elements?_eq_some_iff.mpr ⟨m, ho⟩
    refine ⟨_, length_of_shape hs hes horigin, ?_⟩
    simpa only [hes, Option.bind_some] using occupiedRun_isGreatest es

/-! ## Collections in later states -/

/-- How the collections of one state are found in the states that come `later`, of which those that
are `sparing` an element have been reached without overwriting it. -/
structure RemembersElements (later : Repository ts → Repository ts → Prop)
    (sparing : ObjectId → Nat → Repository ts → Repository ts → Prop) (r : Repository ts) :
    Prop where
  shape : ∀ {r' c s}, later r r' → r.shape c = .ok s → r'.isLive c = true → r'.shape c = .ok s
  /-- An element that has been answered is answered again, and nothing is done for it. -/
  answered : ∀ {r' c index v}, ((Step.element c index).run r).answer = .ok v →
    sparing c index ((Step.element c index).run r).repo r' → r'.isLive c = true →
      (Step.element c index).run r' = ⟨.ok v, r', []⟩
  /-- An element that has been overwritten is answered as it was written. -/
  overwritten : ∀ {r' c index v}, ((Step.setElement c index v).run r).answer = .ok () →
    sparing c index ((Step.setElement c index v).run r).repo r' → r'.isLive c = true →
      (Step.element c index).run r' = ⟨.ok v, r', []⟩
  length_le : ∀ {r' c n}, later r r' → r.length c = .ok (.count n) → r'.isLive c = true →
    ∃ n', r'.length c = .ok (.count n') ∧ n ≤ n'

/-- The element at an index, and no other one. -/
def OtherThan (c : ObjectId) (index : Nat) (x : ObjectId) (i : Nat) (_ : Value) : Prop :=
  ¬ (x = c ∧ i = index)

/-- What a slot holds is remembered, unless it is overwritten. -/
theorem remembering_slot (c : ObjectId) (s : Shape) (index : Nat) (v : Value) :
    Remembering (OtherThan c index)
      (Stays c s (fun es => es.get? index = some v) : Repository ts → Prop) := by
  refine remembering_stays c s (fun es i w hv hnone => ?_) fun es i w hv hother => ?_
  · have hne : i ≠ index := by
      rintro rfl
      simp [hnone] at hv
    rw [Table.get?_insert, if_neg hne, hv]
  · rw [Table.get?_insert, if_neg fun hi => hother ⟨rfl, hi⟩, hv]

/-- The element that is stored stays, as long as it is not overwritten. -/
theorem run_element_of_stored {v : Value} (hr : r.WellFormed) (hstored : Step.Stored r c index v)
    (h' : r'.Indexed)
    (hlater : ∀ P, Remembering (OtherThan c index) P → P r → P r') (hlive : r'.isLive c = true) :
    (Step.element c index).run r' = ⟨.ok v, r', []⟩ := by
  obtain ⟨s, hs, -⟩ := hstored.admitted
  have hstays : Stays c s (fun es => es.get? index = some v) r := .of_shape hr hs fun es hes => by
    have hvalue := hstored.value
    rwa [hes, Option.bind_some] at hvalue
  obtain ⟨hs', es, hes, hv⟩ := (hlater _ (remembering_slot c s index v) hstays).of_isLive hlive
  exact (h'.stored hs' hes hv).run_element

/-- What is remembered of collections, given that what can be remembered is. -/
theorem Indexed.remembersElements (h : r.Indexed) {later : Repository ts → Repository ts → Prop}
    {sparing : ObjectId → Nat → Repository ts → Repository ts → Prop}
    (hlater : ∀ {r₁ r'}, later r₁ r' → ∀ P, Remembering (fun _ _ _ => True) P → P r₁ → P r')
    (hsparing : ∀ {c index r₁ r'}, sparing c index r₁ r' →
      ∀ P, Remembering (OtherThan c index) P → P r₁ → P r') :
    r.RemembersElements later sparing := by
  have hindexed : Remembering (fun _ _ _ => True) (Indexed : Repository ts → Prop) :=
    remembering_indexed
  constructor
  case shape =>
    intro r' c s hr' hs hlive
    have hstays : Stays c s (fun _ => True) r := .of_shape h.wellFormed hs fun _ _ => trivial
    exact ((hlater hr' _ (remembering_stays c s (fun _ _ _ h _ => h) fun _ _ _ h _ => h)
      hstays).of_isLive hlive).1
  case answered =>
    intro r' c index v hv hr' hlive
    obtain ⟨h₁, hstored⟩ := (Step.element_remembers hindexed h c index).ok_of_answer hv
    exact run_element_of_stored h₁.wellFormed hstored
      (hsparing hr' _ (hindexed.mono fun _ _ _ _ => trivial) h₁) (hsparing hr') hlive
  case overwritten =>
    intro r' c index v hv hr' hlive
    obtain ⟨hstored, h₁⟩ := (Step.setElement_remembers hindexed h c index v).ok_of_answer hv
    exact run_element_of_stored (h₁ trivial).wellFormed hstored
      (hsparing hr' _ (hindexed.mono fun _ _ _ _ => trivial) (h₁ trivial)) (hsparing hr') hlive
  case length_le =>
    intro r' c n hr' hn hlive
    obtain ⟨s, es, hs, horigin, hes, rfl⟩ := length_eq_count hn
    -- Indices that are occupied stay so, whatever is written at them.
    have hstays : Stays c s
        (fun fs => ∀ i, 0 < i → i ≤ occupiedRun es → ∃ v, fs.get? i = some v) r := by
      refine .of_shape h.wellFormed hs fun fs hfs => ?_
      obtain rfl := Option.some.inj (hes.symm.trans hfs)
      exact (occupiedRun_isGreatest es).1
    have hkept : ∀ (fs : Table Nat Value) (j : Nat) (w : Value),
        (∀ i, 0 < i → i ≤ occupiedRun es → ∃ v, fs.get? i = some v) →
          ∀ i, 0 < i → i ≤ occupiedRun es → ∃ v, (fs.insert j w).get? i = some v := by
      intro fs j w hfs i hpos hi
      rw [Table.get?_insert]
      split
      · exact ⟨w, rfl⟩
      · exact hfs i hpos hi
    obtain ⟨hs', fs, hfs, hrun⟩ := (hlater hr' _ (remembering_stays c s
      (fun fs j w hfs _ => hkept fs j w hfs) fun fs j w hfs _ => hkept fs j w hfs)
      hstays).of_isLive hlive
    exact ⟨_, length_of_shape hs' hfs horigin, (occupiedRun_isGreatest fs).2 hrun⟩

end Repository

/-! ## Runs to later states -/

open Repository (Indexed OtherThan remembering_indexed)

/-- The operation does not overwrite the element, unless it fails. -/
def Operation.SparesElement (c : ObjectId) (index : Nat) (r : Repository ts)
    (operation : Operation κ) : Prop :=
  ∀ v, operation = .setElement c index v → ((Step.setElement c index v).run r).answer ≠ .ok ()

theorem indexed_empty : (Repository.empty ts).Indexed :=
  ⟨Repository.wellFormed_empty, fun hs => by simp [Repository.shape_eq_ok_iff] at hs⟩

section Later

variable {P : Repository ts → Prop}

theorem Operation.remembering_of_reached (hP : Remembering (fun _ _ _ => True) P) (h : P r)
    (hr' : Reached perform (fun _ _ => True) r r') : P r' :=
  hr'.invariant h fun _ operation hr _ =>
    operation.perform_remembering hP hr fun _ _ _ _ _ => trivial

theorem Operation.sparing_of_reached (hP : Remembering (OtherThan c index) P) (h : P r)
    (hr' : Reached perform (SparesElement c index) r r') : P r' := by
  refine hr'.invariant h fun _ operation hr hspares =>
    operation.perform_remembering hP hr fun x i v hop hanswer => ?_
  rintro ⟨rfl, rfl⟩
  exact hspares v hop hanswer

end Later

namespace Idl

variable {limits : Limits} {r r' : Repository (system limits)}
  {P : Repository (system limits) → Prop}

/-- The operation does not overwrite the element, unless it fails. -/
def Operation.SparesElement (c : ObjectId) (index : Nat) (r : Repository (system limits)) :
    Operation → Prop
  | repository operation => operation.SparesElement c index r
  | _ => True

theorem Operation.remembering_of_reached (hP : Remembering (fun _ _ _ => True) P) (h : P r)
    (hr' : Reached perform (fun _ _ => True) r r') : P r' :=
  hr'.invariant h fun _ operation hr _ => operation.perform_editable (editable_of_firm hP.firm)
    (fun inner _ => inner.perform_remembering hP hr fun _ _ _ _ _ => trivial) hr

theorem Operation.sparing_of_reached (hP : Remembering (OtherThan c index) P) (h : P r)
    (hr' : Reached perform (SparesElement c index) r r') : P r' := by
  refine hr'.invariant h fun _ operation hr hspares =>
    operation.perform_editable (editable_of_firm hP.firm) (fun inner hinner => ?_) hr
  subst hinner
  refine inner.perform_remembering hP hr fun x i v hop hanswer => ?_
  rintro ⟨rfl, rfl⟩
  exact hspares v hop hanswer

end Idl

/-- In every state of every run from the empty repository, and of every run of the facade: occupied
indices are admitted, an index is refused as out of bounds exactly if it is not, and the length of a
collection that holds data is the largest number up to which all indices are occupied. As long as
the collection is live, however the run goes on, its shape stays, the length does not decrease, and
an element that has been answered or overwritten is answered again without any change, until it is
overwritten by a call that succeeds. -/
theorem remembers_of_reached (ts : TypeSystem κ) (limits : Limits) :
    (∀ operations : List (Operation κ),
      let r := Operation.run (Repository.empty ts) operations
      r.OrdersElements ∧ r.RemembersElements (Reached Operation.perform fun _ _ => True)
        fun c index => Reached Operation.perform (Operation.SparesElement c index)) ∧
    (∀ operations : List Idl.Operation,
      let r := Idl.Operation.run (Idl.initial limits) operations
      r.OrdersElements ∧ r.RemembersElements (Reached Idl.Operation.perform fun _ _ => True)
        fun c index => Reached Idl.Operation.perform (Idl.Operation.SparesElement c index)) := by
  constructor
  · intro operations r
    have h : r.Indexed := Operation.remembering_of_reached remembering_indexed indexed_empty
      (Reached.start.foldl operations)
    exact ⟨h.ordersElements, h.remembersElements
      (fun hr' _ hP hr => Operation.remembering_of_reached hP hr hr')
      fun hr' _ hP hr => Operation.sparing_of_reached hP hr hr'⟩
  · intro operations r
    have h : r.Indexed := Idl.Operation.remembering_of_reached remembering_indexed
      (Idl.initial_of_empty remembering_indexed.firm.toDeclarative indexed_empty)
      (Reached.start.foldl operations)
    exact ⟨h.ordersElements, h.remembersElements
      (fun hr' _ hP hr => Idl.Operation.remembering_of_reached hP hr hr')
      fun hr' _ hP hr => Idl.Operation.sparing_of_reached hP hr hr'⟩

end Metamodel
