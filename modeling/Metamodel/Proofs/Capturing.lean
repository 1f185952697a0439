import Mathlib.Data.Finset.Card
import Metamodel.Proofs.Forms
import Metamodel.Proofs.Representation

/-!
# Metamodel.Proofs.Capturing -- snapshots of datatypes that contain themselves

Capturing goes from a composite to what its fields hold, and from a collection to what its elements
are made from. It may come back to a datatype through a collection, or through composites that have
been put into a circle; then it stops, as the datatype is open on the way there. Each composite that
is opened leaves fewer datatypes to open, and the element of a collection is older than the
collection, so this way comes to an end and the depth that snapshots are given is never used up.
Main statement: in every state of every run a snapshot is what this recursion gives, and it shows
all fields of a composite unless its datatype is open further out.
-/

namespace Metamodel

variable {κ : Type} {ts : TypeSystem κ}

namespace Repository

variable {r : Repository ts} {m n : ModelId} {within : List ModelId} {id x : ObjectId}
  {v : Value} {image : Snapshot}

/-! ## The recursion -/

/-- What the capture of a value leads to: from a composite whose datatype is not open to the values
of its fields, while it is open, and from a collection to what its elements are made from. -/
inductive Calls (r : Repository ts) : List ModelId × Value → List ModelId × Value → Prop where
  | field {within : List ModelId} {id : ObjectId} {m : ModelId} {f : Table String Value}
      {v : Value} : r.modelOf? id = some m → m ∉ within → r.fields? id = some f → v ∈ f.values →
      Calls r (m :: within, v) (within, .composite id)
  | element {within : List ModelId} {id : ObjectId} {s : Shape} {v : Value} :
      r.shape id = .ok s → r.valueOf s.element = .ok v →
      Calls r (within, v) (within, .collection id)

/-- One round of capturing, given how the values that it leads to are captured. -/
def captureRound (r : Repository ts) (capture : List ModelId → Value → Except Error Snapshot)
    (within : List ModelId) : Value → Except Error Snapshot
  | .accessor path => .ok (.accessor path)
  | .scalar scalar => .ok (.scalar scalar)
  | .composite id => do
    let m ← r.modelOf id
    if m ∈ within then .ok (.composite (r.nameOf m) [])
    else do
      let fields ← r.fields id
      let captured ← fields.entries.mapM fun field => do
        let inner ← capture (m :: within) field.2
        .ok (field.1, inner)
      .ok (.composite (r.nameOf m) captured)
  | .collection id => do
    let s ← r.shape id
    let element ← r.valueOf s.element
    let inner ← capture within element
    .ok (.collection s.name s.capacity inner)

/-- What a value looks like where the datatypes in `within` are open: a composite shows all its
fields in their order, or none if its datatype is open. -/
inductive Captures (r : Repository ts) : List ModelId → Value → Snapshot → Prop where
  | accessor (within : List ModelId) (path : String) :
      Captures r within (.accessor path) (.accessor path)
  | scalar (within : List ModelId) (s : Scalar) : Captures r within (.scalar s) (.scalar s)
  | closed {within : List ModelId} {id : ObjectId} {m : ModelId} :
      r.modelOf? id = some m → m ∈ within →
      Captures r within (.composite id) (.composite (r.nameOf m) [])
  | opened {within : List ModelId} {id : ObjectId} {m : ModelId} {f : Table String Value}
      {images : List (String × Snapshot)} :
      r.modelOf? id = some m → m ∉ within → r.fields? id = some f →
      images.map (·.1) = f.keys →
      (∀ p ∈ f.values.zip (images.map (·.2)), Captures r (m :: within) p.1 p.2) →
      Captures r within (.composite id) (.composite (r.nameOf m) images)
  | collection {within : List ModelId} {id : ObjectId} {s : Shape} {v : Value}
      {image : Snapshot} :
      r.shape id = .ok s → r.valueOf s.element = .ok v → Captures r within v image →
      Captures r within (.collection id) (.collection s.name s.capacity image)

/-! ## Capturing comes to an end -/

/-- How many datatypes can still be opened. -/
def unopened (r : Repository ts) (within : List ModelId) : Nat :=
  ((Finset.range r.models.size).filter fun i => ModelId.mk i ∉ within).card

theorem unopened_le (r : Repository ts) (within : List ModelId) :
    r.unopened within ≤ r.models.size := by
  have hle := Finset.card_filter_le (Finset.range r.models.size) fun i => ModelId.mk i ∉ within
  rwa [Finset.card_range] at hle

theorem unopened_cons_lt (hm : m.index < r.models.size) (hnot : m ∉ within) :
    r.unopened (m :: within) < r.unopened within := by
  refine Finset.card_lt_card ((Finset.ssubset_iff_of_subset fun i hi => ?_).mpr ⟨m.index, ?_, ?_⟩)
  · obtain ⟨hi, hopen⟩ := Finset.mem_filter.mp hi
    exact Finset.mem_filter.mpr ⟨hi, fun hmem => hopen (List.mem_cons_of_mem m hmem)⟩
  · exact Finset.mem_filter.mpr ⟨Finset.mem_range.mpr hm, hnot⟩
  · intro hmem
    exact (Finset.mem_filter.mp hmem).2 List.mem_cons_self

/-- No capture goes on for ever: a composite is left for fewer datatypes to open, and a collection
for an older object. -/
theorem WellFormed.wellFounded_calls (hr : r.WellFormed) : WellFounded r.Calls := by
  have hwf : WellFounded (InvImage (Prod.Lex (· < ·) (· < ·))
      fun call : List ModelId × Value =>
        (r.unopened call.1, call.2.object?.elim 0 ObjectId.index)) :=
    InvImage.wf _ (WellFounded.prod_lex Nat.lt_wfRel.wf Nat.lt_wfRel.wf)
  refine Subrelation.wf (fun {inner outer} h => ?_) hwf
  cases h with
  | field hm hnot _ _ =>
    exact Prod.Lex.left _ _ (unopened_cons_lt (hr.model_lt_of_modelOf? hm) hnot)
  | element hs hv =>
    refine Prod.Lex.right _ ?_
    rw [(denotes_of_valueOf hv).2]
    exact hr.element_lt hs

/-! ## The depth is never used up -/

/-- Opening a composite with some depth left is a round. -/
theorem captureComposite_succ_eq (depth : Nat) (within : List ModelId) (id : ObjectId) :
    r.captureComposite (depth + 1) within id =
      r.captureRound (fun within => r.captureWith (r.captureComposite depth within)) within
        (.composite id) := by
  simp only [captureComposite, captureRound, List.contains_iff_mem]

/-- A round asks about a composite only where its datatype has been opened. -/
theorem captureRound_composite_congr {c c' : List ModelId → Value → Except Error Snapshot}
    (h : ∀ m, r.modelOf? id = some m → m ∉ within → c (m :: within) = c' (m :: within)) :
    r.captureRound c within (.composite id) = r.captureRound c' within (.composite id) := by
  simp only [captureRound, bind, Except.bind]
  cases hm : r.modelOf id with
  | error e => rfl
  | ok m =>
    by_cases hmem : m ∈ within
    · simp only [hmem, if_true]
    · simp only [hmem, if_false, h m (modelOf_eq_ok_iff.mp hm) hmem]

theorem captureComposite_of_error {e : Error} (hm : r.modelOf id = .error e) (depth : Nat)
    (within : List ModelId) : r.captureComposite depth within id = .error e := by
  rw [captureComposite, hm]
  rfl

/-- Where no more datatypes can be opened than the depth allows, the depth does not matter. -/
theorem WellFormed.captureComposite_stable (hr : r.WellFormed) {depth depth' : Nat}
    (hdepth : r.unopened within ≤ depth) (hdepth' : r.unopened within ≤ depth') :
    r.captureComposite depth within id = r.captureComposite depth' within id := by
  induction hmeasure : r.unopened within using Nat.strong_induction_on
    generalizing depth depth' within id with
  | _ measure ih =>
    subst hmeasure
    cases hm : r.modelOf id with
    | error e => rw [captureComposite_of_error hm, captureComposite_of_error hm]
    | ok m =>
      obtain ⟨o, ho, rfl⟩ := modelOf?_eq_some_iff.mp (modelOf_eq_ok_iff.mp hm)
      by_cases hmem : o.model ∈ within
      · rw [captureComposite_of_mem ho hmem, captureComposite_of_mem ho hmem]
      · have hlt := unopened_cons_lt (hr.model_lt ho) hmem
        obtain ⟨depth, rfl⟩ : ∃ k, depth = k + 1 := ⟨depth - 1, by omega⟩
        obtain ⟨depth', rfl⟩ : ∃ k, depth' = k + 1 := ⟨depth' - 1, by omega⟩
        rw [captureComposite_succ_eq, captureComposite_succ_eq]
        refine captureRound_composite_congr fun n hn _ => ?_
        obtain rfl := Option.some.inj ((modelOf?_of_object? ho).symm.trans hn)
        have hinner : r.captureComposite depth (o.model :: within) =
            r.captureComposite depth' (o.model :: within) :=
          funext fun x => ih _ hlt (by omega) (by omega) rfl
        rw [hinner]

/-- Captures a value where some datatypes are open, with depth for all that there are. -/
def capture (r : Repository ts) (within : List ModelId) (v : Value) : Except Error Snapshot :=
  r.captureWith (r.captureComposite r.models.size within) v

theorem shape_eq_error {e : Error} (hs : r.shape id = .error e)
    (c : ObjectId → Except Error Snapshot) : r.captureWith c (.collection id) = .error e := by
  simp only [captureWith, layers, layersWithin, hs, bind, Except.bind]

/-- Capturing is the recursion without any limit on its depth. -/
theorem WellFormed.capture_eq (hr : r.WellFormed) (within : List ModelId) (v : Value) :
    r.capture within v = r.captureRound r.capture within v := by
  cases v with
  | accessor path => rfl
  | scalar s => rfl
  | composite id =>
    -- One more than there are datatypes allows the same, and then the first step is a round.
    have hstable : r.captureComposite r.models.size within id =
        r.captureComposite (r.models.size + 1) within id :=
      hr.captureComposite_stable (r.unopened_le within) (Nat.le_succ_of_le (r.unopened_le within))
    exact hstable.trans (captureComposite_succ_eq r.models.size within id)
  | collection id =>
    cases hs : r.shape id with
    | error e =>
      rw [capture, shape_eq_error hs]
      simp only [captureRound, hs, bind, Except.bind]
    | ok s =>
      rw [capture, captureWith_of_shape hr hs]
      simp only [captureRound, hs, bind, Except.bind, capture]
      cases r.valueOf s.element with
      | error e => rfl
      | ok v => cases r.captureWith (r.captureComposite r.models.size within) v <;> rfl

/-! ## What a snapshot shows -/

/-- Lists of entries match if their keys are the same and their values match one by one. -/
theorem forall₂_entries_iff {α β γ : Type} {R : β → γ → Prop} {es : List (α × β)}
    {images : List (α × γ)} :
    List.Forall₂ (fun e i => i.1 = e.1 ∧ R e.2 i.2) es images ↔
      images.map (·.1) = es.map (·.1) ∧
        ∀ p ∈ (es.map (·.2)).zip (images.map (·.2)), R p.1 p.2 := by
  induction es generalizing images with
  | nil => cases images <;> simp
  | cons e rest ih =>
    cases images with
    | nil => simp
    | cons i images =>
      simp only [List.forall₂_cons, ih, List.map_cons, List.zip_cons_cons, List.forall_mem_cons,
        List.cons.injEq]
      tauto

/-- The fields of a composite are captured one by one under their roles. -/
theorem mapM_fields_eq_ok_iff {c : Value → Except Error Snapshot} {f : Table String Value}
    {images : List (String × Snapshot)} :
    (f.entries.mapM fun field => do
        let inner ← c field.2
        .ok (field.1, inner)) = .ok images ↔
      images.map (·.1) = f.keys ∧
        ∀ p ∈ f.values.zip (images.map (·.2)), c p.1 = .ok p.2 := by
  have hfield : ∀ (field : String × Value) (i : String × Snapshot),
      (do
        let inner ← c field.2
        .ok (field.1, inner)) = Except.ok i ↔ i.1 = field.1 ∧ c field.2 = .ok i.2 := by
    rintro ⟨role, v⟩ ⟨role', image⟩
    rw [bind_eq_ok_iff]
    constructor
    · rintro ⟨inner, hinner, hi⟩
      obtain ⟨rfl, rfl⟩ := Prod.mk.inj (Except.ok.inj hi)
      exact ⟨rfl, hinner⟩
    · rintro ⟨rfl, hinner⟩
      exact ⟨image, hinner, rfl⟩
  rw [mapM_eq_ok_iff]
  refine Iff.trans ⟨.imp fun field i => (hfield field i).mp,
    .imp fun field i => (hfield field i).mpr⟩ ?_
  exact forall₂_entries_iff (R := fun v image => c v = .ok image)

section Round

variable {c : List ModelId → Value → Except Error Snapshot}

/-- A round answers with what its value looks like, if the values that it leads to are captured as
what they look like. -/
theorem captures_of_captureRound
    (hc : ∀ {inner w image}, r.Calls (inner, w) (within, v) → c inner w = .ok image →
      r.Captures inner w image)
    (h : r.captureRound c within v = .ok image) : r.Captures within v image := by
  cases v with
  | accessor path =>
    obtain rfl := Except.ok.inj h
    exact .accessor within path
  | scalar s =>
    obtain rfl := Except.ok.inj h
    exact .scalar within s
  | composite id =>
    obtain ⟨m, hm, h⟩ := bind_eq_ok_iff.mp h
    have hm := modelOf_eq_ok_iff.mp hm
    by_cases hmem : m ∈ within
    · rw [if_pos hmem] at h
      obtain rfl := Except.ok.inj h
      exact .closed hm hmem
    · rw [if_neg hmem] at h
      obtain ⟨f, hf, h⟩ := bind_eq_ok_iff.mp h
      obtain ⟨images, himages, h⟩ := bind_eq_ok_iff.mp h
      obtain rfl := Except.ok.inj h
      have hf := fields?_eq_some_iff.mpr (fields_eq_ok_iff.mp hf)
      obtain ⟨hkeys, hvalues⟩ := mapM_fields_eq_ok_iff.mp himages
      refine .opened hm hmem hf hkeys fun p hp => ?_
      exact hc (.field hm hmem hf (List.of_mem_zip hp).1) (hvalues p hp)
  | collection id =>
    obtain ⟨s, hs, h⟩ := bind_eq_ok_iff.mp h
    obtain ⟨w, hw, h⟩ := bind_eq_ok_iff.mp h
    obtain ⟨inner, hinner, h⟩ := bind_eq_ok_iff.mp h
    obtain rfl := Except.ok.inj h
    exact .collection hs hw (hc (.element hs hw) hinner)

/-- A value that looks like something is captured by a round, if the values that it leads to are. -/
theorem Captures.captureRound
    (hc : ∀ {inner w image}, r.Calls (inner, w) (within, v) → r.Captures inner w image →
      c inner w = .ok image)
    (h : r.Captures within v image) : r.captureRound c within v = .ok image := by
  cases h with
  | accessor path => rfl
  | scalar s => rfl
  | closed hm hmem =>
    refine bind_eq_ok_iff.mpr ⟨_, modelOf_eq_ok_iff.mpr hm, ?_⟩
    rw [if_pos hmem]
  | opened hm hmem hf hkeys hvalues =>
    refine bind_eq_ok_iff.mpr ⟨_, modelOf_eq_ok_iff.mpr hm, ?_⟩
    rw [if_neg hmem]
    refine bind_eq_ok_iff.mpr ⟨_, fields_eq_ok_iff.mpr (fields?_eq_some_iff.mp hf), ?_⟩
    refine bind_eq_ok_iff.mpr ⟨_, mapM_fields_eq_ok_iff.mpr ⟨hkeys, fun p hp => ?_⟩, rfl⟩
    exact hc (.field hm hmem hf (List.of_mem_zip hp).1) (hvalues p hp)
  | collection hs hw hinner =>
    refine bind_eq_ok_iff.mpr ⟨_, hs, bind_eq_ok_iff.mpr ⟨_, hw, ?_⟩⟩
    exact bind_eq_ok_iff.mpr ⟨_, hc (.element hs hw) hinner, rfl⟩

end Round

/-- A value is captured as what it looks like. By induction on the values that the capture leads
to. -/
theorem WellFormed.capture_eq_ok_iff (hr : r.WellFormed) :
    r.capture within v = .ok image ↔ r.Captures within v image := by
  induction hcall : (within, v) using hr.wellFounded_calls.induction
    generalizing within v image with
  | _ call ih =>
    subst hcall
    rw [hr.capture_eq]
    constructor
    · exact captures_of_captureRound fun hcalls => (ih _ hcalls rfl).mp
    · exact Captures.captureRound fun hcalls => (ih _ hcalls rfl).mpr

/-- Inside a composite that is opened, a composite of a datatype that is not open is shown with all
its fields, whatever stands beside it. -/
theorem Captures.sibling {f g : Table String Value} (h : r.Captures within (.composite id) image)
    (hm : r.modelOf? id = some m) (hnot : m ∉ within) (hf : r.fields? id = some f) {i : Nat}
    {role : String} (hx : f.entries[i]? = some (role, .composite x)) (hn : r.modelOf? x = some n)
    (hopen : n ∉ m :: within) (hg : r.fields? x = some g) :
    ∃ images inner, image = .composite (r.nameOf m) images ∧
      images[i]? = some (role, .composite (r.nameOf n) inner) ∧ inner.map (·.1) = g.keys := by
  cases h with
  | closed hm' hmem =>
    obtain rfl := Option.some.inj (hm.symm.trans hm')
    exact absurd hmem hnot
  | @opened _ _ _ f' images hm' _ hf' hkeys hvalues =>
    obtain rfl := Option.some.inj (hm.symm.trans hm')
    obtain rfl := Option.some.inj (hf.symm.trans hf')
    -- The image at the place of the sibling, which comes under the same role.
    have hrole : (images.map (·.1))[i]? = some role := by
      rw [hkeys, Table.keys, List.getElem?_map, hx]
      rfl
    obtain ⟨⟨role', sibling⟩, hi, rfl⟩ := Option.map_eq_some_iff.mp (List.getElem?_map ▸ hrole)
    have hvalue : f.values[i]? = some (.composite x) := by
      rw [Table.values, List.getElem?_map, hx]
      rfl
    have hsibling := hvalues (.composite x, sibling) (List.mem_of_getElem? (i := i) (by
      rw [List.getElem?_zip_eq_some]
      exact ⟨hvalue, by rw [List.getElem?_map, hi]; rfl⟩))
    cases hsibling with
    | closed hn' hmem =>
      obtain rfl := Option.some.inj (hn.symm.trans hn')
      exact absurd hmem hopen
    | @opened _ _ _ g' inner hn' _ hg' hkeys' _ =>
      obtain rfl := Option.some.inj (hn.symm.trans hn')
      obtain rfl := Option.some.inj (hg.symm.trans hg')
      exact ⟨images, inner, rfl, hi, hkeys'⟩

/-- Snapshots open every composite whose datatype is not open on the way to it, and no other. -/
structure OpensOnEachPath (r : Repository ts) : Prop where
  /-- The recursion comes to an end from every value. -/
  ends : WellFounded r.Calls
  /-- A snapshot, or the error where there is none, is what the recursion gives from no datatype
  open, with no limit on how deep it goes. -/
  recursion : ∃ capture : List ModelId → Value → Except Error Snapshot,
    (∀ within v, capture within v = r.captureRound capture within v) ∧
      ∀ v, r.snapshot v = capture [] v
  /-- A snapshot shows all fields of a composite in their order if no composite around it has its
  datatype, and else none. -/
  shows : ∀ {v image}, r.snapshot v = .ok image ↔ r.Captures [] v image
  /-- Two composites side by side do not close each other: each is shown with all its fields, also
  if they have one datatype, unless that is open around them. -/
  sibling : ∀ {within id m f image}, r.Captures within (.composite id) image →
    r.modelOf? id = some m → m ∉ within → r.fields? id = some f →
    ∀ {i : Nat} {role x n g}, f.entries[i]? = some (role, .composite x) → r.modelOf? x = some n →
      n ∉ m :: within → r.fields? x = some g →
      ∃ images inner : List (String × Snapshot),
        image = .composite (r.nameOf m) images ∧
          images[i]? = some (role, .composite (r.nameOf n) inner) ∧ inner.map (·.1) = g.keys

theorem WellFormed.opensOnEachPath (hr : r.WellFormed) : r.OpensOnEachPath where
  ends := hr.wellFounded_calls
  recursion := ⟨r.capture, hr.capture_eq, fun _ => rfl⟩
  shows := hr.capture_eq_ok_iff
  sibling h hm hnot hf := h.sibling hm hnot hf

end Repository

/-- In every state of every run from the empty repository, and of every run of the facade, also
where datatypes contain themselves through collections or composites have been put into a circle:
capturing a value comes to an end. A snapshot shows every composite with all its fields in their
order, unless a composite around it has the same datatype; then it shows it with none. A composite
beside another one of its datatype is shown in full. -/
theorem opensOnEachPath_of_run (ts : TypeSystem κ) (limits : Limits) :
    (∀ operations : List (Operation κ),
      (Operation.run (Repository.empty ts) operations).OpensOnEachPath) ∧
    (∀ operations : List Idl.Operation,
      (Idl.Operation.run (Idl.initial limits) operations).OpensOnEachPath) := by
  constructor
  · intro operations
    exact (Operation.wellFormed_run ts operations).opensOnEachPath
  · intro operations
    exact (Idl.Operation.wellFormed_run limits operations).opensOnEachPath

end Metamodel
