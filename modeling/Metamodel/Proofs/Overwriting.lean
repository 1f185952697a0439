import Metamodel.Proofs.Remembering

/-!
# Metamodel.Proofs.Overwriting -- only leaves are overwritten

To overwrite an element is to ask for it first, which makes it where there is none. What comes of
the write is decided by the answer alone. Main statement: in every state of every run, a write is
refused as the element is; a structured element is left as it is, with an error of its own; a leaf
is replaced, and nothing but its slot changes. A slot that holds a structured value therefore holds
it for as long as the collection is there.
-/

namespace Metamodel

variable {κ : Type} {ts : TypeSystem κ} {r r' : Repository ts} {c : ObjectId} {s : Shape}
  {index : Nat} {v : Value}

namespace Repository

/-! ## The frame of a write -/

/-- One slot of one collection has been given a value, and everything else is as it was. -/
structure WritesSlot (c : ObjectId) (index : Nat) (v : Value) (r r' : Repository ts) : Prop where
  models : r'.models = r.models
  objects : r'.objects.size = r.objects.size
  others : ∀ x, x ≠ c → r'.object? x = r.object? x
  slots : ∃ m es es', r.object? c = some (.collection m es) ∧
    r'.object? c = some (.collection m es') ∧ es'.keys = es.keys ∧
    ∀ i, es'.get? i = if i = index then some v else es.get? i

theorem writesSlot_writeElement {w : Value}
    (hw : (r.elements? c).bind (·.get? index) = some w) (v : Value) :
    r.WritesSlot c index v (r.writeElement c index v) := by
  obtain ⟨es, hes, hget⟩ := Option.bind_eq_some_iff.mp hw
  obtain ⟨m, ho⟩ := elements?_eq_some_iff.mp hes
  constructor
  case models => exact models_writeElement c index v
  case objects => exact size_objects_writeElement c index v
  case others =>
    intro x hx
    rw [object?_writeElement, if_neg hx]
  case slots =>
    refine ⟨m, es, es.insert index v, ho, ?_, ?_, fun i => ?_⟩
    · exact collection_writeElement.mpr ⟨es, ho, (if_pos rfl).symm⟩
    · rw [Table.keys_insert, if_pos (Table.mem_keys_iff.mpr ⟨w, hget⟩)]
    · simp only [Table.get?_insert, eq_comm]

end Repository

open Repository (Indexed OtherThan Remembering Stays remembering_indexed remembering_stays)

namespace Step

/-! ## One write -/

/-- The element that a write asks for has the shape of its collection in the state before. -/
theorem stored_of_element (h : r.Indexed) (hv : ((element c index).run r).answer = .ok v) :
    ∃ s, r.shape c = .ok s ∧ ((element c index).run r).repo.shape c = .ok s ∧
      Stored ((element c index).run r).repo c index v := by
  cases hs : r.shape c with
  | error e =>
    have hrefused : (element c index).run r = ⟨.error e, r, []⟩ := by
      rw [element, run_query_bind, hs]
    simp [hrefused] at hv
  | ok s =>
    obtain ⟨-, hstored⟩ := (element_remembers remembering_indexed h c index).ok_of_answer hv
    have hstays : Stays c s (fun _ => True) r := .of_shape h.wellFormed hs fun _ _ => trivial
    have hremembering : Remembering (fun _ _ _ => True)
        (Stays c s (fun _ => True) : Repository ts → Prop) :=
      remembering_stays c s (fun _ _ _ h _ => h) fun _ _ _ h _ => h
    obtain ⟨hstays', -⟩ := (element_remembers hremembering hstays c index).ok_of_answer hv
    obtain ⟨t, ht, -⟩ := hstored.admitted
    obtain ⟨m, es, ho, -⟩ := Repository.shape_eq_ok_iff.mp ht
    exact ⟨s, rfl, (hstays'.of_isLive (Repository.isLive_iff.mpr ⟨_, ho⟩)).1, hstored⟩

theorem run_setElement_of_error {e : Error} (w : Value)
    (he : ((element c index).run r).answer = .error e) :
    (setElement c index w).run r =
      ⟨.error e, ((element c index).run r).repo, ((element c index).run r).log⟩ :=
  run_bind_of_error he

theorem run_setElement_of_structured (w : Value)
    (hv : ((element c index).run r).answer = .ok v) (hstructured : v.isStructured = true)
    (hs : ((element c index).run r).repo.shape c = .ok s) :
    (setElement c index w).run r = ⟨.error (.structuredElement s.name index),
      ((element c index).run r).repo, ((element c index).run r).log⟩ := by
  rw [setElement, run_bind_of_ok hv, if_pos hstructured, run_query_bind, hs]
  simp only [run_fail, List.append_nil]

theorem run_setElement_of_leaf (w : Value) (hv : ((element c index).run r).answer = .ok v)
    (hleaf : v.isStructured = false) :
    (setElement c index w).run r = ⟨.ok (), ((element c index).run r).repo.writeElement c index w,
      ((element c index).run r).log⟩ := by
  rw [setElement, run_bind_of_ok hv, if_neg (by simp [hleaf])]
  simp only [run_edit, List.append_nil]

end Step

namespace Repository

/-- What a write to an element comes to, given what asking for the element comes to. -/
structure OverwritesLeaves (r : Repository ts) : Prop where
  refused : ∀ {c index e} w, ((Step.element c index).run r).answer = .error e →
    (Step.setElement c index w).run r =
      ⟨.error e, ((Step.element c index).run r).repo, ((Step.element c index).run r).log⟩
  /-- An element that is structured is made where there is none, and is not replaced. -/
  structured : ∀ {c index v} w, ((Step.element c index).run r).answer = .ok v →
    v.isStructured = true → ∃ s, r.shape c = .ok s ∧ (Step.setElement c index w).run r =
      ⟨.error (.structuredElement s.name index),
        ((Step.element c index).run r).repo, ((Step.element c index).run r).log⟩
  leaf : ∀ {c index v} w, ((Step.element c index).run r).answer = .ok v →
    v.isStructured = false → ∃ r',
      (Step.setElement c index w).run r = ⟨.ok (), r', ((Step.element c index).run r).log⟩ ∧
      (Step.element c index).run r' = ⟨.ok w, r', []⟩ ∧
      ((Step.element c index).run r).repo.WritesSlot c index w r'

theorem Indexed.overwritesLeaves (h : r.Indexed) : r.OverwritesLeaves where
  refused w he := Step.run_setElement_of_error w he
  structured w hv hstructured := by
    obtain ⟨s, hs, hs', -⟩ := Step.stored_of_element h hv
    exact ⟨s, hs, Step.run_setElement_of_structured w hv hstructured hs'⟩
  leaf w hv hleaf := by
    obtain ⟨-, -, -, hstored⟩ := Step.stored_of_element h hv
    obtain ⟨s, hs, hadmits⟩ := hstored.admitted
    exact ⟨_, Step.run_setElement_of_leaf w hv hleaf,
      (Step.stored_writeElement hs hadmits w).run_element,
      writesSlot_writeElement hstored.value w⟩

/-! ## Structured elements throughout a run -/

/-- A structured value is in its slot as long as the collection is there, and no write to the slot
succeeds, in any of the states that come `later`. -/
def KeepsStructures (later : Repository ts → Repository ts → Prop) (r : Repository ts) : Prop :=
  ∀ {r' : Repository ts} {c : ObjectId} {index : Nat} {v : Value}, later r r' →
    (r.elements? c).bind (·.get? index) = some v → v.isStructured = true →
      (r'.isLive c = true → (r'.elements? c).bind (·.get? index) = some v) ∧
      ∀ w, ((Step.setElement c index w).run r').answer ≠ .ok ()

/-- A value is in its slot, unless the collection has been released. -/
def Settled (c : ObjectId) (s : Shape) (index : Nat) (v : Value) (r : Repository ts) : Prop :=
  r.Indexed ∧ Stays c s (fun es => es.get? index = some v) r

theorem remembering_settled :
    Remembering (OtherThan c index) (Settled c s index v : Repository ts → Prop) :=
  (remembering_indexed.mono fun _ _ _ _ => trivial).and (remembering_slot c s index v)

theorem Indexed.settled (h : r.Indexed) (hv : (r.elements? c).bind (·.get? index) = some v) :
    ∃ s, Settled c s index v r := by
  obtain ⟨es, hes, hget⟩ := Option.bind_eq_some_iff.mp hv
  obtain ⟨m, ho⟩ := elements?_eq_some_iff.mp hes
  obtain ⟨s, hs, -⟩ := h.wellFormed.collection ho
  refine ⟨s, h, .of_shape h.wellFormed (shape_eq_ok_iff.mpr ⟨m, es, ho, hs⟩) fun es' hes' => ?_⟩
  obtain rfl := Option.some.inj (hes.symm.trans hes')
  exact hget

theorem Settled.stored (h : Settled c s index v r) (hlive : r.isLive c = true) :
    Step.Stored r c index v := by
  obtain ⟨hs, es, hes, hv⟩ := h.2.of_isLive hlive
  exact h.1.stored hs hes hv

theorem Settled.refuses (h : Settled c s index v r) (hstructured : v.isStructured = true)
    (w : Value) : ((Step.setElement c index w).run r).answer ≠ .ok () := by
  intro hok
  cases hlive : r.isLive c with
  | true =>
    have hrun := (h.stored hlive).run_element
    have hs := (h.2.of_isLive hlive).1
    rw [Step.run_setElement_of_structured w (congrArg Outcome.answer hrun) hstructured
      (s := s) (by rw [hrun]; exact hs)] at hok
    simp at hok
  | false =>
    -- Nothing is found of a collection that has been released.
    have hs : r.shape c = .error (.unknownObject c) := by
      cases ho : r.object? c with
      | none => simp [shape, ho]
      | some o => simp [isLive, ho] at hlive
    have hrun : (Step.element c index).run r = ⟨.error (.unknownObject c), r, []⟩ := by
      rw [Step.element, Step.run_query_bind, hs]
    rw [Step.run_setElement_of_error w (congrArg Outcome.answer hrun)] at hok
    simp at hok

theorem Indexed.keepsStructures (h : r.Indexed) {later : Repository ts → Repository ts → Prop}
    (hlater : ∀ {r' c s index v}, later r r' → v.isStructured = true → Settled c s index v r →
      Settled c s index v r') : r.KeepsStructures later := by
  intro r' c index v hr' hv hstructured
  obtain ⟨s, hsettled⟩ := h.settled hv
  have hsettled' := hlater hr' hstructured hsettled
  exact ⟨fun hlive => (hsettled'.stored hlive).value, hsettled'.refuses hstructured⟩

end Repository

/-! ## Runs -/

open Repository (Settled remembering_settled)

/-- No operation overwrites a structured value: writes elsewhere spare it, and writes to it fail. -/
theorem Operation.settled_of_reached (hr' : Reached perform (fun _ _ => True) r r')
    (hstructured : v.isStructured = true) (h : Settled c s index v r) :
    Settled c s index v r' := by
  refine hr'.invariant h fun _ operation hr _ =>
    operation.perform_remembering remembering_settled hr fun x i w _ hanswer => ?_
  rintro ⟨rfl, rfl⟩
  exact hr.refuses hstructured w hanswer

namespace Idl

variable {limits : Limits} {r r' : Repository (system limits)}

theorem Operation.settled_of_reached (hr' : Reached perform (fun _ _ => True) r r')
    (hstructured : v.isStructured = true) (h : Settled c s index v r) :
    Settled c s index v r' := by
  refine hr'.invariant h fun _ operation hr _ =>
    operation.perform_editable (editable_of_firm remembering_settled.firm) (fun inner _ => ?_) hr
  refine inner.perform_remembering remembering_settled hr fun x i w _ hanswer => ?_
  rintro ⟨rfl, rfl⟩
  exact hr.refuses hstructured w hanswer

end Idl

/-- In every state of every run from the empty repository, and of every run of the facade, for every
collection, index and value: overwriting an element fails with the error of asking for it, if that
fails; if the element is structured, it is refused, and leaves what asking for it leaves; otherwise
it succeeds, the element is then answered as it was written, and no other slot, no other object and
no model is changed. However the run goes on, a structured value stays in its slot as long as the
collection is live, and no write to the slot succeeds. -/
theorem overwritesLeaves_of_run (ts : TypeSystem κ) (limits : Limits) :
    (∀ operations : List (Operation κ),
      let r := Operation.run (Repository.empty ts) operations
      r.OverwritesLeaves ∧ r.KeepsStructures (Reached Operation.perform fun _ _ => True)) ∧
    (∀ operations : List Idl.Operation,
      let r := Idl.Operation.run (Idl.initial limits) operations
      r.OverwritesLeaves ∧ r.KeepsStructures (Reached Idl.Operation.perform fun _ _ => True)) := by
  constructor
  · intro operations r
    have h : r.Indexed := Operation.remembering_of_reached remembering_indexed indexed_empty
      (Reached.start.foldl operations)
    exact ⟨h.overwritesLeaves, h.keepsStructures Operation.settled_of_reached⟩
  · intro operations r
    have h : r.Indexed := Idl.Operation.remembering_of_reached remembering_indexed
      (Idl.initial_of_empty remembering_indexed.firm.toDeclarative indexed_empty)
      (Reached.start.foldl operations)
    exact ⟨h.overwritesLeaves, h.keepsStructures Idl.Operation.settled_of_reached⟩

end Metamodel
