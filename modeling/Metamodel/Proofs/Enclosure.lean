import Metamodel.Proofs.Representation
import Metamodel.Proofs.Worklist
import Metamodel.Scope

/-!
# Metamodel.Proofs.Enclosure -- scoped names along the chain of namespaces

Namespaces may enclose each other in any way, themselves included. A chain of them that comes to an
end, or to the namespace that a name is seen from, meets no model twice and is therefore shorter
than the number of models; so only a chain that never does is taken for a cycle. Main statement: in
every state of every run, the root and the scoped name of a datatype are what the chain says, and
the name seen from outside is that of an enclosing namespace followed by the name seen from there.
-/

namespace Metamodel

variable {κ : Type} {ts : TypeSystem κ}

namespace Repository

variable {r r' : Repository ts} {m n k o : ModelId} {ms : List ModelId} {stop : Option ModelId}
  {t x : ObjectId}

/-! ## Namespaces are datatypes -/

/-- What encloses a datatype is a datatype. -/
structure Enclosed (r : Repository ts) : Prop where
  wellFormed : r.WellFormed
  scope : ∀ {m d}, r.model? m = some (.datatype d) → r.MayEnclose d.scope

theorem Enclosed.step (h : r.Enclosed) (hr' : r'.WellFormed) (hsteady : r.Steady r')
    (hscope : ∀ {m d'}, r'.model? m = some (.datatype d') →
      (∃ d, r.model? m = some (.datatype d) ∧ d'.scope = d.scope) ∨ r.MayEnclose d'.scope) :
    r'.Enclosed := by
  refine ⟨hr', fun {m d'} hd' => ?_⟩
  have henclose : r.MayEnclose d'.scope := by
    rcases hscope hd' with ⟨d, hd, heq⟩ | henclose
    · rw [heq]
      exact h.scope hd
    · exact henclose
  intro n hn
  obtain ⟨outer, houter⟩ := henclose n hn
  obtain ⟨outer', houter', -⟩ := hsteady.datatype houter
  exact ⟨outer', houter'⟩

theorem Enclosed.mapDatatype (h : r.Enclosed) {m : ModelId} {f : Datatype κ → Datatype κ}
    (hr' : (r.mapDatatype m f).WellFormed)
    (hf : ∀ d, (f d).kind = d.kind ∧ (f d).template = d.template)
    (hscope : ∀ d, (f d).scope = d.scope ∨ r.MayEnclose (f d).scope) :
    (r.mapDatatype m f).Enclosed := by
  refine h.step hr' (steady_mapDatatype hf) fun {n d'} hd' => ?_
  obtain ⟨d, hd, rfl⟩ := model?_mapDatatype_datatype.mp hd'
  split
  · exact (hscope d).imp_left fun heq => ⟨d, hd, heq⟩
  · exact Or.inl ⟨d, hd, rfl⟩

theorem enclosed_robust : Robust (Enclosed : Repository ts → Prop) where
  wellFormed := Enclosed.wellFormed
  grew h hr' := by
    refine h.step hr'.1 hr'.2.steady fun hd' => ?_
    obtain ⟨d, g, hd, rfl⟩ := hr'.2.datatype_of hd'
    exact Or.inl ⟨d, hd, rfl⟩
  addTemplate name kind h := by
    refine h.step (h.wellFormed.addTemplate name kind) (steady_addTemplate name kind)
      fun {m d'} hd' => ?_
    rw [model?_addTemplate] at hd'
    split at hd'
    · -- The new datatype is in no namespace.
      obtain rfl := Model.datatype.inj (Option.some.inj hd')
      exact Or.inr fun n hn => by simp [freshDatatype] at hn
    · exact Or.inl ⟨d', hd', rfl⟩
  mapEntries m f _ h :=
    h.mapDatatype (h.wellFormed.mapEntries m f) (fun _ => ⟨rfl, rfl⟩) fun _ => Or.inl rfl
  annotate m f _ h :=
    h.mapDatatype (h.wellFormed.mapEntries m f) (fun _ => ⟨rfl, rfl⟩) fun _ => Or.inl rfl
  putQualifiers m qs h :=
    h.mapDatatype (h.wellFormed.putQualifiers m qs) (fun _ => ⟨rfl, rfl⟩) fun _ => Or.inl rfl
  putScope m _ h hs :=
    h.mapDatatype (h.wellFormed.putScope m hs) (fun _ => ⟨rfl, rfl⟩) fun _ => Or.inr hs
  writeElement id index value h :=
    h.step (h.wellFormed.writeElement id index value) (steady_writeElement id index value)
      fun hd' => Or.inl ⟨_, by simpa using hd', rfl⟩
  writeField id role value h :=
    h.step (h.wellFormed.writeField id role value) (steady_writeField id role value)
      fun hd' => Or.inl ⟨_, by simpa using hd', rfl⟩
  free h hid := by
    refine h.step (h.wellFormed.free hid) (steady_free _) fun hd' => ?_
    obtain ⟨d, g, hd, rfl⟩ := datatype_of_free hd'
    exact Or.inl ⟨d, hd, rfl⟩

theorem enclosed_empty : (Repository.empty ts).Enclosed :=
  ⟨wellFormed_empty, fun hd => by simp at hd⟩

theorem scopeOf?_datatype {d : Datatype κ} (h : r.model? m = some (.datatype d)) :
    r.scopeOf? m = d.scope := by
  simp [scopeOf?, h, Model.scope?, Model.datatype?]

/-! ## The chain of namespaces -/

/-- The way outwards from a model to one that encloses it: the models on it, both included. -/
inductive Ascent (r : Repository ts) : ModelId → ModelId → List ModelId → Prop where
  | refl (m : ModelId) : Ascent r m m [m]
  | outwards {m o n : ModelId} {ms : List ModelId} : r.scopeOf? m = some o → Ascent r o n ms →
      Ascent r m n (m :: ms)

/-- A model is another one or encloses it. -/
def Within (r : Repository ts) (m n : ModelId) : Prop :=
  ∃ ms, r.Ascent m n ms

/-- The chain of namespaces around a model has an outermost one. -/
def Ends (r : Repository ts) (m : ModelId) : Prop :=
  ∃ n, r.Within m n ∧ r.scopeOf? n = none

namespace Ascent

theorem start_mem (h : r.Ascent m n ms) : m ∈ ms := by
  cases h <;> exact List.mem_cons_self

theorem ne_nil (h : r.Ascent m n ms) : ms ≠ [] :=
  List.ne_nil_of_mem h.start_mem

theorem getLastD (h : r.Ascent m n ms) (d : ModelId) : ms.getLastD d = n := by
  induction h generalizing d with
  | refl m => rfl
  | outwards hscope _ ih => rw [List.getLastD_cons, ih]

theorem append {inner outer : List ModelId} (h : r.Ascent m n inner)
    (hscope : r.scopeOf? n = some o) (houter : r.Ascent o k outer) :
    r.Ascent m k (inner ++ outer) := by
  induction h with
  | refl m => exact .outwards hscope houter
  | outwards hm _ ih => exact .outwards hm (ih hscope)

/-- What encloses a model is on the chain to the outermost one, which goes on from there. -/
theorem rest {outer : List ModelId} (h : r.Ascent m k ms) (hroot : r.Ascent m n outer)
    (hn : r.scopeOf? n = none) : ∃ rest, r.Ascent k n rest ∧ rest ⊆ outer := by
  induction h generalizing outer with
  | refl m => exact ⟨outer, hroot, List.Subset.refl _⟩
  | outwards hscope _ ih =>
    cases hroot with
    | refl => simp [hscope] at hn
    | outwards hscope' hroot =>
      obtain rfl := Option.some.inj (hscope.symm.trans hscope')
      obtain ⟨rest, hrest, hsub⟩ := ih hroot
      exact ⟨rest, hrest, fun y hy => List.mem_cons_of_mem _ (hsub hy)⟩

theorem datatype (h : r.Ascent m n ms) (hr : r.Enclosed)
    (hm : ∃ d, r.model? m = some (.datatype d)) : ∃ d, r.model? n = some (.datatype d) := by
  induction h with
  | refl m => exact hm
  | outwards hscope _ ih =>
    obtain ⟨d, hd⟩ := hm
    exact ih (hr.scope hd _ ((scopeOf?_datatype hd).symm.trans hscope))

end Ascent

/-! ## Following the chain -/

/-- The chain from a model outwards, up to its end or up to but without `stop`, whichever comes
first. -/
inductive Climb (r : Repository ts) (stop : Option ModelId) : ModelId → List ModelId → Prop where
  | root {m : ModelId} : r.scopeOf? m = none → Climb r stop m [m]
  | inside {m k : ModelId} : r.scopeOf? m = some k → stop = some k → Climb r stop m [m]
  | outwards {m o : ModelId} {ms : List ModelId} : r.scopeOf? m = some o → stop ≠ some o →
      Climb r stop o ms → Climb r stop m (m :: ms)

namespace Climb

theorem unique {ms' : List ModelId} (h : r.Climb stop m ms) (h' : r.Climb stop m ms') :
    ms = ms' := by
  induction h generalizing ms' with
  | root hm =>
    cases h' with
    | root => rfl
    | inside hm' => simp [hm] at hm'
    | outwards hm' => simp [hm] at hm'
  | inside hm hk =>
    cases h' with
    | root => rfl
    | inside => rfl
    | outwards hm' hne => exact (hne (hk.trans (hm.symm.trans hm'))).elim
  | outwards hm hne _ ih =>
    cases h' with
    | root hm' => simp [hm] at hm'
    | inside hm' hk => exact (hne (hk.trans (hm'.symm.trans hm))).elim
    | outwards hm' _ h' =>
      obtain rfl := Option.some.inj (hm.symm.trans hm')
      rw [ih h']

/-- From each model on the chain the rest of the chain is followed. -/
theorem later (h : r.Climb stop m ms) (hn : n ∈ ms) :
    ∃ ns, r.Climb stop n ns ∧ ns.length ≤ ms.length := by
  induction h with
  | root hm =>
    obtain rfl := List.mem_singleton.mp hn
    exact ⟨_, .root hm, Nat.le_refl _⟩
  | inside hm hk =>
    obtain rfl := List.mem_singleton.mp hn
    exact ⟨_, .inside hm hk, Nat.le_refl _⟩
  | outwards hm hne hrest ih =>
    rcases List.mem_cons.mp hn with rfl | hn
    · exact ⟨_, .outwards hm hne hrest, Nat.le_refl _⟩
    · obtain ⟨ns, hns, hle⟩ := ih hn
      exact ⟨ns, hns, Nat.le_succ_of_le hle⟩

/-- A model that came twice would have two chains of different lengths. -/
theorem nodup (h : r.Climb stop m ms) : ms.Nodup := by
  induction h with
  | root => exact List.nodup_singleton _
  | inside => exact List.nodup_singleton _
  | outwards hm hne hrest ih =>
    refine List.nodup_cons.mpr ⟨fun hmem => ?_, ih⟩
    obtain ⟨ns, hns, hle⟩ := hrest.later hmem
    obtain rfl := hns.unique (.outwards hm hne hrest)
    rw [List.length_cons] at hle
    omega

theorem index_lt (h : r.Climb stop m ms) (hr : r.WellFormed) (hm : m.index < r.models.size) :
    ∀ n ∈ ms, n.index < r.models.size := by
  induction h with
  | root =>
    intro n hn
    rwa [List.mem_singleton.mp hn]
  | inside =>
    intro n hn
    rwa [List.mem_singleton.mp hn]
  | outwards hscope _ _ ih =>
    intro n hn
    rcases List.mem_cons.mp hn with rfl | hn
    · exact hm
    · exact ih (hr.inRange.scope hscope) n hn

/-- A chain that is followed to its end is not longer than there are models. -/
theorem length_le (h : r.Climb stop m ms) (hr : r.WellFormed) (hm : m.index < r.models.size) :
    ms.length ≤ r.models.size :=
  length_le_of_nodup (fun _ _ heq => ModelId.eq_iff.mpr heq) h.nodup (h.index_lt hr hm)

end Climb

section Steps

variable {steps : Nat}

theorem enclosing_root (hm : r.scopeOf? m = none) : r.enclosing stop steps m = .ok [m] := by
  unfold enclosing
  simp only [hm]

theorem enclosing_inside (hm : r.scopeOf? m = some k) (hk : stop = some k) :
    r.enclosing stop steps m = .ok [m] := by
  unfold enclosing
  simp only [hm]
  exact if_pos hk.symm

theorem enclosing_zero (hm : r.scopeOf? m = some o) (hne : stop ≠ some o) :
    r.enclosing stop 0 m = .error (.scope (.cycle (r.nameOf m))) := by
  unfold enclosing
  simp only [hm]
  exact if_neg hne.symm

theorem enclosing_succ (hm : r.scopeOf? m = some o) (hne : stop ≠ some o) :
    r.enclosing stop (steps + 1) m = (r.enclosing stop steps o).map (m :: ·) := by
  rw [enclosing.eq_def]
  simp only [hm]
  exact if_neg hne.symm

/-- A chain is followed in as many steps as it has models. -/
theorem enclosing_of_climb (h : r.Climb stop m ms) (hle : ms.length ≤ steps + 1) :
    r.enclosing stop steps m = .ok ms := by
  induction h generalizing steps with
  | root hm => exact enclosing_root hm
  | inside hm hk => exact enclosing_inside hm hk
  | @outwards m o ms hm hne hrest ih =>
    rw [List.length_cons] at hle
    cases steps with
    | zero =>
      have hne : ms ≠ [] := by
        rintro rfl
        cases hrest
      have := List.length_pos_of_ne_nil hne
      omega
    | succ steps =>
      rw [enclosing_succ hm hne, ih (by omega)]
      rfl

/-- Nothing else than a chain is found, and nothing but a cycle is reported. -/
theorem enclosing_cases (r : Repository ts) (stop : Option ModelId) (steps : Nat) (m : ModelId) :
    (∃ ms, r.Climb stop m ms ∧ r.enclosing stop steps m = .ok ms) ∨
      ∃ name, r.enclosing stop steps m = .error (.scope (.cycle name)) := by
  induction steps generalizing m with
  | zero =>
    cases hm : r.scopeOf? m with
    | none => exact Or.inl ⟨_, .root hm, enclosing_root hm⟩
    | some o =>
      by_cases hk : stop = some o
      · exact Or.inl ⟨_, .inside hm hk, enclosing_inside hm hk⟩
      · exact Or.inr ⟨_, enclosing_zero hm hk⟩
  | succ steps ih =>
    cases hm : r.scopeOf? m with
    | none => exact Or.inl ⟨_, .root hm, enclosing_root hm⟩
    | some o =>
      by_cases hk : stop = some o
      · exact Or.inl ⟨_, .inside hm hk, enclosing_inside hm hk⟩
      · rw [enclosing_succ hm hk]
        rcases ih o with ⟨ms, hms, heq⟩ | ⟨name, heq⟩
        · exact Or.inl ⟨_, .outwards hm hk hms, by rw [heq]; rfl⟩
        · exact Or.inr ⟨name, by rw [heq]; rfl⟩

end Steps

/-- There are enough steps for every chain that comes to an end. -/
theorem Climb.enclosing_eq (h : r.Climb stop m ms) (hr : r.WellFormed)
    (hm : ∃ d, r.model? m = some (.datatype d)) :
    r.enclosing stop r.models.size m = .ok ms := by
  obtain ⟨d, hd⟩ := hm
  exact enclosing_of_climb h (Nat.le_succ_of_le (h.length_le hr (index_lt_of_model? hd)))

/-- A cycle is reported exactly if the chain does not come to an end. -/
theorem enclosing_eq_cycle_iff (hr : r.WellFormed) (hm : ∃ d, r.model? m = some (.datatype d)) :
    (∃ name, r.enclosing stop r.models.size m = .error (.scope (.cycle name))) ↔
      ¬ ∃ ms, r.Climb stop m ms := by
  constructor
  · rintro ⟨name, hcycle⟩ ⟨ms, hms⟩
    rw [hms.enclosing_eq hr hm] at hcycle
    simp at hcycle
  · intro hnone
    rcases enclosing_cases r stop r.models.size m with ⟨ms, hms, -⟩ | hcycle
    · exact (hnone ⟨ms, hms⟩).elim
    · exact hcycle

/-! ## Chains and ascents -/

/-- What is followed is a way outwards that leaves out the model that it stops at. -/
theorem climb_iff (hne : stop ≠ some m) :
    r.Climb stop m ms ↔ ∃ n, r.Ascent m n ms ∧ (∀ k, stop = some k → k ∉ ms) ∧
      (r.scopeOf? n = none ∨ r.scopeOf? n = stop) := by
  constructor
  · intro h
    induction h with
    | @root m hm =>
      refine ⟨m, .refl m, fun k hk hmem => hne ?_, Or.inl hm⟩
      rw [hk, List.mem_singleton.mp hmem]
    | @inside m k hm hk =>
      refine ⟨m, .refl m, fun k hk hmem => hne ?_, Or.inr (hm.trans hk.symm)⟩
      rw [hk, List.mem_singleton.mp hmem]
    | outwards hm ho _ ih =>
      obtain ⟨n, hn, hout, hend⟩ := ih ho
      refine ⟨n, .outwards hm hn, fun k hk hmem => ?_, hend⟩
      rcases List.mem_cons.mp hmem with rfl | hmem
      · exact hne hk
      · exact hout k hk hmem
  · rintro ⟨n, h, hout, hend⟩
    induction h with
    | refl m =>
      cases hm : r.scopeOf? m with
      | none => exact .root hm
      | some k =>
        rcases hend with hnone | hk
        · simp [hm] at hnone
        · exact .inside hm (hk.symm.trans hm)
    | outwards hm hrest ih =>
      have ho : stop ≠ some _ := fun hk => hout _ hk (List.mem_cons_of_mem _ hrest.start_mem)
      exact .outwards hm ho (ih ho (fun k hk hmem => hout k hk (List.mem_cons_of_mem _ hmem)) hend)

/-- The chain is followed if it leads to an outermost model, or to the one that it stops at. -/
theorem Ascent.climb (h : r.Ascent m n ms) (hend : r.scopeOf? n = none ∨ stop = some n)
    (hne : stop ≠ some m) : ∃ ms', r.Climb stop m ms' := by
  induction h with
  | refl m =>
    rcases hend with hm | hm
    · exact ⟨_, .root hm⟩
    · exact (hne hm).elim
  | @outwards m o n ms hm _ ih =>
    by_cases ho : stop = some o
    · exact ⟨_, .inside hm ho⟩
    · obtain ⟨ms', hms'⟩ := ih hend ho
      exact ⟨_, .outwards hm ho hms'⟩

/-- Up to a namespace around a model, the chain is followed to just below it. -/
theorem Ascent.climb_inside (h : r.Ascent m k ms) (hne : k ≠ m) :
    ∃ n ms', r.Climb (some k) m ms' ∧ r.Ascent m n ms' ∧ k ∉ ms' ∧ r.scopeOf? n = some k := by
  have hne' : some k ≠ some m := fun heq => hne (Option.some.inj heq)
  obtain ⟨ms', hms'⟩ := h.climb (Or.inr rfl) hne'
  obtain ⟨n, hn, hout, hend⟩ := (climb_iff hne').mp hms'
  refine ⟨n, ms', hms', hn, hout k rfl, hend.resolve_left fun hnone => hout k rfl ?_⟩
  -- A chain that ends has come past the namespace.
  obtain ⟨rest, hrest, hsub⟩ := h.rest hn hnone
  exact hsub hrest.start_mem

/-- The chain is followed exactly if it ends or meets the model that it stops at. -/
theorem exists_climb_iff (hne : stop ≠ some m) :
    (∃ ms, r.Climb stop m ms) ↔ r.Ends m ∨ ∃ k, stop = some k ∧ r.Within m k := by
  constructor
  · rintro ⟨ms, h⟩
    obtain ⟨n, hn, -, hend⟩ := (climb_iff hne).mp h
    cases hscope : r.scopeOf? n with
    | none => exact Or.inl ⟨n, ⟨ms, hn⟩, hscope⟩
    | some k =>
      rcases hend with hnone | hk
      · simp [hscope] at hnone
      · exact Or.inr ⟨k, hk.symm.trans hscope, _, hn.append hscope (.refl k)⟩
  · rintro (⟨n, ⟨ms, hn⟩, hroot⟩ | ⟨k, hk, ms, hms⟩)
    · exact hn.climb (Or.inl hroot) hne
    · exact hms.climb (Or.inr hk) hne

/-! ## Names and roots -/

/-- An object is bound to a model that is a datatype. -/
def IsOf (r : Repository ts) (t : ObjectId) (m : ModelId) : Prop :=
  r.modelOf? t = some m ∧ ∃ d, r.model? m = some (.datatype d)

/-- The name that the models on a way outwards make. -/
def scopePath (r : Repository ts) (ms : List ModelId) : String :=
  "::".intercalate (ms.reverse.map r.nameOf)

theorem scopedModel_of_isOf (h : r.IsOf t m) : r.scopedModel t = .ok m := by
  obtain ⟨ht, d, hd⟩ := h
  simp [scopedModel, ht, kindOf?_eq_some_iff.mpr ⟨d, hd, rfl⟩]

theorem scopedName_eq {a : Option ObjectId} (ht : r.IsOf t m) (ha : Option.Rel r.IsOf a stop) :
    r.scopedName t a = if some m = stop then .ok none
      else (r.enclosing stop r.models.size m).map fun ms => some (r.scopePath ms) := by
  have hstop : a.mapM r.scopedModel = .ok stop := by
    cases ha with
    | none => rfl
    | some hk => simp [scopedModel_of_isOf hk, Functor.map, Except.map]
  simp only [scopedName, scopedModel_of_isOf ht, hstop]
  show (if some m = stop then _ else _) = _
  split
  · rfl
  · cases r.enclosing stop r.models.size m <;> rfl

/-- A datatype has no name as seen from its own model, whatever encloses it. -/
theorem scopedName_eq_none_iff {a : Option ObjectId} (ht : r.IsOf t m)
    (ha : Option.Rel r.IsOf a stop) : r.scopedName t a = .ok none ↔ stop = some m := by
  rw [scopedName_eq ht ha]
  split
  · next heq => simp [heq]
  · next hne =>
    have hne' : stop ≠ some m := fun heq => hne heq.symm
    cases r.enclosing stop r.models.size m <;> simp [Except.map, hne']

theorem scopeRoot_eq (ht : r.IsOf t m) {ms : List ModelId} {d : Datatype κ}
    (henclosing : r.enclosing none r.models.size m = .ok ms)
    (hd : r.model? (ms.getLastD m) = some (.datatype d)) : r.scopeRoot t = .ok d.template := by
  refine bind_eq_ok_iff.mpr ⟨m, scopedModel_of_isOf ht, bind_eq_ok_iff.mpr ⟨ms, henclosing, ?_⟩⟩
  simp only [template?_datatype hd]

theorem climb_of_root (h : r.Ascent m n ms) (hroot : r.scopeOf? n = none) : r.Climb none m ms :=
  (climb_iff (by simp)).mpr ⟨n, h, by simp, Or.inl hroot⟩

/-- What encloses a datatype is a datatype and has a template. -/
theorem scopeRoot_of_ascent (hr : r.Enclosed) (ht : r.IsOf t m) (h : r.Ascent m n ms)
    (hroot : r.scopeOf? n = none) : ∃ x, r.template? n = some x ∧ r.scopeRoot t = .ok x := by
  obtain ⟨d, hd⟩ := h.datatype hr ht.2
  refine ⟨d.template, template?_datatype hd, ?_⟩
  refine scopeRoot_eq ht ((climb_of_root h hroot).enclosing_eq hr.wellFormed ht.2) ?_
  rwa [h.getLastD]

theorem scopeRoot_of_cycle (ht : r.IsOf t m) {e : Error}
    (hcycle : r.enclosing none r.models.size m = .error e) : r.scopeRoot t = .error e := by
  simp only [scopeRoot, scopedModel_of_isOf ht]
  show (r.enclosing none r.models.size m).bind _ = _
  rw [hcycle]
  rfl

/-- What the namespaces of a repository come to: the roots and the names of its datatypes, seen from
a model to stop at or from outside. -/
structure NamesScopes (r : Repository ts) : Prop where
  root_cycle : ∀ {t m}, r.IsOf t m →
    ((∃ name, r.scopeRoot t = .error (.scope (.cycle name))) ↔ ¬ r.Ends m)
  root : ∀ {t m n}, r.IsOf t m → r.Within m n → r.scopeOf? n = none →
    ∃ x, r.template? n = some x ∧ r.scopeRoot t = .ok x
  unnamed : ∀ {t m a stop}, r.IsOf t m → Option.Rel r.IsOf a stop →
    (r.scopedName t a = .ok none ↔ stop = some m)
  name_cycle : ∀ {t m a stop}, r.IsOf t m → Option.Rel r.IsOf a stop → stop ≠ some m →
    ((∃ name, r.scopedName t a = .error (.scope (.cycle name))) ↔
      ¬ r.Ends m ∧ ∀ k, stop = some k → ¬ r.Within m k)
  /-- The name starts below the model that it stops at, or at the outermost one. -/
  name : ∀ {t m a stop}, r.IsOf t m → Option.Rel r.IsOf a stop → stop ≠ some m →
    (r.Ends m ∨ ∃ k, stop = some k ∧ r.Within m k) →
      ∃ n ms, r.Ascent m n ms ∧ (∀ k, stop = some k → k ∉ ms) ∧
        (r.scopeOf? n = none ∨ r.scopeOf? n = stop) ∧
        r.scopedName t a = .ok (some (r.scopePath ms))
  /-- Names compose along a chain that ends. -/
  composes : ∀ {t m a k}, r.IsOf t m → r.IsOf a k → r.Within m k → k ≠ m → r.Ends m →
    (∃ outer inner, r.scopedName a none = .ok (some outer) ∧
      r.scopedName t (some a) = .ok (some inner) ∧
      r.scopedName t none = .ok (some (outer ++ "::" ++ inner))) ∧
    ∃ x, r.scopeRoot t = .ok x ∧ r.scopeRoot a = .ok x

namespace Enclosed

variable {a : Option ObjectId}

theorem root_cycle (h : r.Enclosed) (ht : r.IsOf t m) :
    (∃ name, r.scopeRoot t = .error (.scope (.cycle name))) ↔ ¬ r.Ends m := by
  constructor
  · rintro ⟨name, hcycle⟩ ⟨n, ⟨ms, hms⟩, hroot⟩
    obtain ⟨x, -, hx⟩ := scopeRoot_of_ascent h ht hms hroot
    simp [hx] at hcycle
  · intro hends
    have hnone : ¬ ∃ ms, r.Climb none m ms := by
      rw [exists_climb_iff (by simp)]
      rintro (hend | ⟨k, hk, -⟩)
      · exact hends hend
      · simp at hk
    obtain ⟨name, hcycle⟩ := (enclosing_eq_cycle_iff h.wellFormed ht.2).mpr hnone
    exact ⟨name, scopeRoot_of_cycle ht hcycle⟩

theorem scopedName_of_climb (h : r.Enclosed) (ht : r.IsOf t m) (ha : Option.Rel r.IsOf a stop)
    (hne : stop ≠ some m) (hms : r.Climb stop m ms) :
    r.scopedName t a = .ok (some (r.scopePath ms)) := by
  rw [scopedName_eq ht ha, if_neg hne.symm, hms.enclosing_eq h.wellFormed ht.2]
  rfl

theorem name_cycle (h : r.Enclosed) (ht : r.IsOf t m) (ha : Option.Rel r.IsOf a stop)
    (hne : stop ≠ some m) : (∃ name, r.scopedName t a = .error (.scope (.cycle name))) ↔
      ¬ r.Ends m ∧ ∀ k, stop = some k → ¬ r.Within m k := by
  have hclimb : (∃ name, r.scopedName t a = .error (.scope (.cycle name))) ↔
      ¬ ∃ ms, r.Climb stop m ms := by
    rw [← enclosing_eq_cycle_iff h.wellFormed ht.2, scopedName_eq ht ha, if_neg hne.symm]
    cases r.enclosing stop r.models.size m <;> simp [Except.map]
  rw [hclimb, exists_climb_iff hne, not_or]
  simp

/-- The chain from below a namespace, and the chain from the namespace, make up the whole. -/
theorem composes {a : ObjectId} (h : r.Enclosed) (ht : r.IsOf t m) (ha : r.IsOf a k)
    (hwithin : r.Within m k) (hne : k ≠ m) (hends : r.Ends m) :
    (∃ outer inner, r.scopedName a none = .ok (some outer) ∧
      r.scopedName t (some a) = .ok (some inner) ∧
      r.scopedName t none = .ok (some (outer ++ "::" ++ inner))) ∧
    ∃ x, r.scopeRoot t = .ok x ∧ r.scopeRoot a = .ok x := by
  obtain ⟨z, ⟨full, hfull⟩, hroot⟩ := hends
  obtain ⟨between, hbetween⟩ := hwithin
  obtain ⟨outer, houter, -⟩ := hbetween.rest hfull hroot
  obtain ⟨n, inner, hinner, hn, -, hscope⟩ := hbetween.climb_inside hne
  have hne' : some k ≠ some m := fun heq => hne (Option.some.inj heq)
  have hwhole : r.Ascent m z (inner ++ outer) := hn.append hscope houter
  have hpath : r.scopePath (inner ++ outer) = r.scopePath outer ++ "::" ++ r.scopePath inner := by
    unfold scopePath
    rw [List.reverse_append, List.map_append]
    exact String.intercalate_append_of_ne_nil (by simpa using houter.ne_nil)
      (by simpa using hn.ne_nil)
  refine ⟨⟨r.scopePath outer, r.scopePath inner, ?_, ?_, ?_⟩, ?_⟩
  · exact h.scopedName_of_climb ha .none (by simp) (climb_of_root houter hroot)
  · exact h.scopedName_of_climb ht (.some ha) hne' hinner
  · rw [← hpath]
    exact h.scopedName_of_climb ht .none (by simp) (climb_of_root hwhole hroot)
  · obtain ⟨x, hx, hxt⟩ := scopeRoot_of_ascent h ht hwhole hroot
    obtain ⟨y, hy, hya⟩ := scopeRoot_of_ascent h ha houter hroot
    obtain rfl := Option.some.inj (hx.symm.trans hy)
    exact ⟨x, hxt, hya⟩

theorem namesScopes (h : r.Enclosed) : r.NamesScopes where
  root_cycle := h.root_cycle
  root := fun ht ⟨_, hms⟩ hroot => scopeRoot_of_ascent h ht hms hroot
  unnamed := scopedName_eq_none_iff
  name_cycle := h.name_cycle
  name ht ha hne hmeets := by
    obtain ⟨ms, hms⟩ := (exists_climb_iff hne).mpr hmeets
    obtain ⟨n, hn, hout, hend⟩ := (climb_iff hne).mp hms
    exact ⟨n, ms, hn, hout, hend, h.scopedName_of_climb ht ha hne hms⟩
  composes := h.composes

end Enclosed

end Repository

open Repository (enclosed_robust enclosed_empty)

/-- In every state of every run from the empty repository, and of every run of the facade, whatever
encloses what: the root of a datatype is the template of the outermost model around it, and is
refused as a cycle exactly if there is none. A datatype has no name as seen from its own model; from
elsewhere the name is refused as a cycle exactly if the chain of namespaces neither ends nor meets
what it is seen from, and otherwise joins the names on the chain from below there, or from the
outermost one. Along a chain that ends, the name of a datatype is that of a namespace around it and
its name as seen from there, and they have the same root. -/
theorem namesScopes_of_run (ts : TypeSystem κ) (limits : Limits) :
    (∀ operations : List (Operation κ),
      (Operation.run (Repository.empty ts) operations).NamesScopes) ∧
    (∀ operations : List Idl.Operation,
      (Idl.Operation.run (Idl.initial limits) operations).NamesScopes) := by
  constructor
  · intro operations
    exact (Operation.run_robust enclosed_robust enclosed_empty operations).namesScopes
  · intro operations
    exact (Idl.Operation.run_robust enclosed_robust
      (Idl.initial_of_empty enclosed_robust.toDeclarative enclosed_empty) operations).namesScopes

end Metamodel
