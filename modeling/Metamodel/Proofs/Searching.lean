import Metamodel.Proofs.Acyclic

/-!
# Metamodel.Proofs.Searching -- the search for a model finds what there is

The search goes through datatypes with a stack and a list of what it has seen. Here it is taken as
the loop that it is, with no limit to its rounds: `Searched`. As long as everything that templates
refer to is alive, and what they hold as composites is bound to datatypes, the loop ends, whatever
circles the datatypes may run in. Main statement: the search answers what the loop ends with, and
says yes exactly if a chain of `Contains` leads to the goal.
-/

namespace Metamodel

open Relation (ReflTransGen)

variable {κ : Type} {ts : TypeSystem κ} {r r' : Repository ts}

namespace Repository

/-! ## What templates refer to -/

/-- Every object that a field of a canonical template refers to is alive. -/
def LiveTemplates (r : Repository ts) : Prop :=
  ∀ ⦃m d f v x⦄, r.model? m = some (.datatype d) → r.fields? d.template = some f → v ∈ f.values →
    v.object? = some x → r.isLive x = true

/-- The one datatype may hold a composite of the other: it is no leaf, and the other is a datatype.
-/
def MayHold (r : Repository ts) (m n : ModelId) : Prop :=
  ∃ d e, r.model? m = some (.datatype d) ∧ ts.isLeaf d.kind = false ∧
    r.model? n = some (.datatype e)

/-- Leaves hold no composites, and whatever a template holds as a composite is bound to a datatype
if it is alive. -/
def Fitting (r : Repository ts) : Prop := r.Bounded r.MayHold

theorem Steady.mayHold (h : r.Steady r') {m n : ModelId} (hmn : r.MayHold m n) :
    r'.MayHold m n := by
  obtain ⟨d, e, hd, hleaf, he⟩ := hmn
  obtain ⟨d', hd', hkind, -⟩ := h.datatype hd
  obtain ⟨e', he', -⟩ := h.datatype he
  exact ⟨d', e', hd', hkind ▸ hleaf, he'⟩

namespace Fitting

/-- What templates hold goes on to fit if nothing is held that might not have been before. -/
theorem of_bounded (h : r'.Bounded r.MayHold) (hsteady : r.Steady r') : r'.Fitting :=
  h.mono fun _ _ => hsteady.mayHold

theorem grew (h : r.Fitting) (hr' : Step.Grew r r') : r'.Fitting :=
  of_bounded (Bounded.grew h hr') hr'.2.steady

theorem mapDatatype (h : r.Fitting) {m : ModelId} {f : Datatype κ → Datatype κ}
    (hr' : (r.mapDatatype m f).WellFormed)
    (hf : ∀ d, (f d).kind = d.kind ∧ (f d).template = d.template) : (r.mapDatatype m f).Fitting :=
  of_bounded (Bounded.mapDatatype h hr' hf) (steady_mapDatatype hf)

theorem addTemplate (h : r.Fitting) (name : String) (kind : κ) :
    (r.addTemplate name kind).Fitting :=
  of_bounded (Bounded.addTemplate h name kind) (steady_addTemplate name kind)

/-- A field that refers to nothing, or is removed, does not matter. -/
theorem writeLeaf (h : r.Fitting) (id : ObjectId) (role : String) {value : Option Value}
    (hvalue : ∀ v, value = some v → v.object? = none) : (r.writeField id role value).Fitting := by
  refine of_bounded (Bounded.writeField h fun m d y _ _ hy => ?_) (steady_writeField id role value)
  simpa [Value.object?] using hvalue _ hy

/-- A composite may be written into any datatype that is no leaf. -/
theorem writeNew (h : r.Fitting) (hr' : Step.Grew r r') {v : Value} (hv : Loose r r' v)
    {m : ModelId} {d : Datatype κ} {x : ObjectId} {f : Table String Value}
    (hd : r'.model? m = some (.datatype d)) (hleaf : ts.isLeaf d.kind = false)
    (ho : r'.object? x = some (.composite m f)) (role : String) :
    (r'.writeField x role (some v)).Fitting := by
  refine of_bounded (Bounded.writeField (h.grew hr') fun k e y he hx hy => ?_)
    (steady_writeField x role _)
  obtain rfl := Option.some.inj hy
  obtain ⟨n, g, hobject⟩ := hv.denotes
  obtain ⟨c, hc⟩ := hr'.1.composite hobject
  -- The composite is the template of its own datatype.
  obtain ⟨f', hf'⟩ := hr'.1.template he
  rw [hx] at hf'
  obtain ⟨rfl, -⟩ := composite_unique ho hf'
  refine ⟨index_lt_of_object? hobject, hv.noTemplate h.wellFormed hr'.2 rfl, fun n' hn' => ?_⟩
  obtain rfl := Option.some.inj ((modelOf?_of_object? hobject).symm.trans hn')
  exact ⟨d, c, hd, hleaf, hc⟩

theorem writeElement (h : r.Fitting) (id : ObjectId) (index : Nat) (v : Value) :
    (r.writeElement id index v).Fitting :=
  of_bounded (Bounded.writeElement h id index v) (steady_writeElement id index v)

theorem free (h : r.Fitting) {id : ObjectId} (hid : r.NoTemplate id) : (r.free id).Fitting :=
  of_bounded (Bounded.free h hid) (steady_free id)

theorem mayHold (h : r.Fitting) {m n : ModelId} (hmn : r.Contains m n) : r.MayHold m n :=
  Bounded.contains h hmn

/-- A leaf contains nothing. -/
theorem not_contains (h : r.Fitting) {m n : ModelId} (hleaf : r.isLeaf m = true) :
    ¬ r.Contains m n := by
  intro hmn
  obtain ⟨d, -, hd, hkind, -⟩ := h.mayHold hmn
  simp [isLeaf_datatype hd, hkind] at hleaf

end Fitting

variable {goal m : ModelId} {rounds : Nat} {seen stack : List ModelId} {d : Datatype κ}

/-- With what it refers to alive, a template tells the datatypes that it contains and no others. -/
theorem LiveTemplates.heldModels (hlive : r.LiveTemplates) (hr : r.WellFormed)
    (hd : r.model? m = some (.datatype d)) :
    ∃ held, r.heldModels m = .ok held ∧ ∀ n ∈ held, r.Contains m n := by
  obtain ⟨f, ho⟩ := hr.template hd
  have hf : r.fields? d.template = some f := fields?_eq_some_iff.mpr ⟨m, ho⟩
  refine exists_heldModels (template?_datatype hd) hf fun x hx => ?_
  obtain ⟨o, hobject⟩ := isLive_iff.mp (hlive hd hf hx rfl)
  obtain ⟨role, hrole⟩ := Table.get?_of_mem_values (hr.roles_nodup ho) hx
  have hn : r.modelOf? x = some o.model := modelOf?_of_object? hobject
  exact ⟨o.model, hn, d, f, role, x, hd, hf, hrole, hn⟩

/-- What comes to the top of the stack is a datatype like what is there. -/
theorem Fitting.datatype_of_stack (h : r.Fitting) {held rest : List ModelId}
    (hheld : ∀ n ∈ held, r.Contains m n)
    (hrest : ∀ n ∈ rest, ∃ d, r.model? n = some (.datatype d)) :
    ∀ n ∈ held.reverse ++ rest, ∃ d, r.model? n = some (.datatype d) := by
  intro n hn
  rcases List.mem_append.mp hn with hn | hn
  · obtain ⟨-, e, -, -, he⟩ := h.mayHold (hheld n (List.mem_reverse.mp hn))
    exact ⟨e, he⟩
  · exact hrest n hn

/-! ## The search as a loop -/

/-- How the loop ends that has seen some models and has others on the stack: with the goal on top,
or with nothing left. A model that has been seen is passed over; of any other one, those that it
holds come to the top. -/
inductive Searched (r : Repository ts) (goal : ModelId) :
    List ModelId → List ModelId → Bool → Prop where
  | exhausted (seen : List ModelId) : Searched r goal seen [] false
  | found (seen rest : List ModelId) : Searched r goal seen (goal :: rest) true
  | again {m : ModelId} {seen rest : List ModelId} {b : Bool} (hne : m ≠ goal) (hm : m ∈ seen)
      (h : Searched r goal seen rest b) : Searched r goal seen (m :: rest) b
  | held {m : ModelId} {seen rest held : List ModelId} {b : Bool} (hne : m ≠ goal) (hm : m ∉ seen)
      (hheld : r.heldModels m = .ok held)
      (h : Searched r goal (m :: seen) (held.reverse ++ rest) b) :
      Searched r goal seen (m :: rest) b

namespace Searched

/-- What has been seen is passed over all at once. -/
theorem of_dropWhile (hgoal : ∀ m ∈ seen, m ≠ goal) {b : Bool}
    (h : r.Searched goal seen (stack.dropWhile seen.contains) b) :
    r.Searched goal seen stack b := by
  induction stack with
  | nil => exact h
  | cons m rest ih =>
    by_cases hm : m ∈ seen
    · rw [List.dropWhile_cons_of_pos (by simpa using hm)] at h
      exact .again (hgoal m hm) hm (ih h)
    · rwa [List.dropWhile_cons_of_neg (by simpa using hm)] at h

/-- The goal comes to the top only if there is a way to it from the stack. -/
theorem reaches {b : Bool} (h : r.Searched goal seen stack b) (hb : b = true) (hr : r.WellFormed)
    (hlive : r.LiveTemplates) (hfit : r.Fitting)
    (hstack : ∀ m ∈ stack, ∃ d, r.model? m = some (.datatype d)) :
    ∃ m ∈ stack, ReflTransGen r.Contains m goal := by
  induction h with
  | exhausted => simp at hb
  | found => exact ⟨goal, List.mem_cons_self, .refl⟩
  | again _ _ _ ih =>
    obtain ⟨n, hn, hpath⟩ := ih hb fun m hm => hstack m (List.mem_cons_of_mem _ hm)
    exact ⟨n, List.mem_cons_of_mem _ hn, hpath⟩
  | @held m seen rest held b _ _ hheld _ ih =>
    obtain ⟨d, hd⟩ := hstack m List.mem_cons_self
    obtain ⟨held', hheld', hcontains⟩ := hlive.heldModels hr hd
    obtain rfl := Except.ok.inj (hheld.symm.trans hheld')
    obtain ⟨n, hn, hpath⟩ := ih hb <| hfit.datatype_of_stack hcontains fun n hn =>
      hstack n (List.mem_cons_of_mem _ hn)
    rcases List.mem_append.mp hn with hn | hn
    · exact ⟨m, List.mem_cons_self, .head (hcontains n (List.mem_reverse.mp hn)) hpath⟩
    · exact ⟨n, List.mem_cons_of_mem _ hn, hpath⟩

end Searched

/-- The loop ends, and the rounds of the search are enough for it. -/
theorem Searching.searched (h : r.Searching goal rounds seen stack) (hr : r.WellFormed)
    (hlive : r.LiveTemplates) (hfit : r.Fitting)
    (hstack : ∀ m ∈ stack, ∃ d, r.model? m = some (.datatype d)) :
    ∃ b, r.search goal rounds seen stack = .ok b ∧ r.Searched goal seen stack b := by
  induction rounds generalizing seen stack with
  | zero => exact (not_searching_zero h).elim
  | succ rounds ih =>
    unfold search
    split
    · next hdrop => exact ⟨false, rfl, .of_dropWhile h.ne_goal (hdrop ▸ .exhausted seen)⟩
    · next m rest hdrop =>
      obtain ⟨hmem, hrest⟩ := mem_of_dropWhile_eq_cons hdrop
      have hnew : m ∉ seen := by simpa using (of_dropWhile_eq_cons hdrop).1
      by_cases hm : m = goal
      · subst hm
        exact ⟨true, if_pos rfl, .of_dropWhile h.ne_goal (hdrop ▸ .found seen rest)⟩
      · obtain ⟨d, hd⟩ := hstack m hmem
        obtain ⟨held, hheld, hcontains⟩ := hlive.heldModels hr hd
        obtain ⟨b, hsearch, hb⟩ := ih (h.round hr hdrop hm hheld) <|
          hfit.datatype_of_stack hcontains fun n hn => hstack n (hrest n hn)
        refine ⟨b, ?_, .of_dropWhile h.ne_goal (hdrop ▸ .held hm hnew hheld hb)⟩
        rw [if_neg hm, hheld]
        exact hsearch

/-- The search from a datatype answers what the loop ends with, and tells whether there is a way. -/
theorem search_exact (hr : r.WellFormed) (hlive : r.LiveTemplates) (hfit : r.Fitting)
    {start : ModelId} (hd : r.model? start = some (.datatype d)) (goal : ModelId) :
    ∃ b, r.search goal (r.models.size + 1) [] [start] = .ok b ∧ r.Searched goal [] [start] b ∧
      (b = true ↔ ReflTransGen r.Contains start goal) := by
  have hstart : start.index < r.models.size := index_lt_of_model? hd
  have hstack : ∀ m ∈ [start], ∃ d, r.model? m = some (.datatype d) := by simpa using ⟨d, hd⟩
  obtain ⟨b, hsearch, hb⟩ := (searching_start hstart).searched hr hlive hfit hstack
  refine ⟨b, hsearch, hb, ?_⟩
  cases b with
  | true =>
    obtain ⟨m, hm, hpath⟩ := hb.reaches rfl hr hlive hfit hstack
    obtain rfl := List.mem_singleton.mp hm
    exact iff_of_true rfl hpath
  | false => exact iff_of_false (by simp) (not_reaches_of_search hr hstart hsearch)

end Repository

end Metamodel
