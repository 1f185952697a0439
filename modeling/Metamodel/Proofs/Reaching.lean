import Metamodel.Proofs.Cloning
import Metamodel.Proofs.Discerning
import Metamodel.Proofs.Searching
import Metamodel.Proofs.Transparency

/-!
# Metamodel.Proofs.Reaching -- the search says what an instance would hold

A datatype may not come to hold itself outside of collections, and this is found out by a search
through canonical templates before anything is made. Main statement: the search is right about what
would be made. It says yes exactly if the instance, which is copied from the same templates, is a
composite of the datatype that is searched for or holds one in fields, with no collection on the
way; as long as nothing that templates refer to has been released.
-/

namespace Metamodel

open Relation (ReflTransGen)

variable {κ : Type} {ts : TypeSystem κ} {r r' : Repository ts} {since depth : Nat}
  {id x : ObjectId} {goal m n : ModelId} {v : Value}

namespace Repository

/-! ## What a value holds outside of collections -/

/-- The value is the composite, or holds it in fields, with no collection on the way. -/
inductive Embeds (r : Repository ts) : Value → ObjectId → Prop where
  | self (y : ObjectId) : Embeds r (.composite y) y
  | field {x y : ObjectId} {role : String} {v : Value} (hv : r.field? x role = some v)
      (h : Embeds r v y) : Embeds r (.composite x) y

/-- A composite of the datatype that has been made since is in the value, outside of collections. -/
def EmbedsNew (r : Repository ts) (since : Nat) (v : Value) (goal : ModelId) : Prop :=
  ∃ y, r.Embeds v y ∧ since ≤ y.index ∧ r.modelOf? y = some goal

theorem not_embedsNew (hv : v.composite? = none) : ¬ r.EmbedsNew since v goal := by
  rintro ⟨y, hembeds, -⟩
  cases hembeds with
  | self => simp [Value.composite?] at hv
  | field => simp [Value.composite?] at hv

theorem embedsNew_composite_iff : r.EmbedsNew since (.composite x) goal ↔
    (since ≤ x.index ∧ r.modelOf? x = some goal) ∨
      ∃ role v, r.field? x role = some v ∧ r.EmbedsNew since v goal := by
  constructor
  · rintro ⟨y, hembeds, hy⟩
    cases hembeds with
    | self => exact Or.inl hy
    | field hv h => exact Or.inr ⟨_, _, hv, y, h, hy⟩
  · rintro (hx | ⟨role, v, hv, y, h, hy⟩)
    · exact ⟨x, .self x, hx⟩
    · exact ⟨y, .field hv h, hy⟩

/-! ## What a datatype comes to -/

/-- The aliases from a datatype carry no dimensions, and the datatype at their end is the goal or
leads to it. -/
def ComesTo (r : Repository ts) (id : ObjectId) (goal : ModelId) : Prop :=
  ∃ t m, r.resolve id = .ok ⟨[], t⟩ ∧ r.modelOf? t = some m ∧ ReflTransGen r.Contains m goal

theorem resolve_plain_iff {t : ObjectId} :
    r.resolve id = .ok ⟨[], t⟩ ↔ r.seed id = .ok (.plain t) :=
  ⟨fun h => (seed_of_resolve h).1, fun h => (seed_plain h).2⟩

theorem comesTo_iff_of_plain {t : ObjectId} (hseed : r.seed id = .ok (.plain t))
    (hm : r.modelOf? t = some m) : r.ComesTo id goal ↔ ReflTransGen r.Contains m goal := by
  have hresolve := resolve_plain_iff.mpr hseed
  constructor
  · rintro ⟨t', m', hresolve', hm', hpath⟩
    obtain ⟨-, rfl⟩ := Resolved.mk.inj (Except.ok.inj (hresolve.symm.trans hresolve'))
    obtain rfl := Option.some.inj (hm.symm.trans hm')
    exact hpath
  · exact fun hpath => ⟨t, m, hresolve, hm, hpath⟩

theorem not_comesTo_of_nested {element : ObjectId} {q : Qualifier}
    (hseed : r.seed id = .ok (.nested element q)) : ¬ r.ComesTo id goal := by
  rintro ⟨t, m, hresolve, -⟩
  have hplain := resolve_plain_iff.mp hresolve
  simp [hseed] at hplain

/-- A live composite that a template holds is no template itself and no alias. -/
theorem Fitting.isPlain (h : r.Fitting) {d : Datatype κ} {f : Table String Value} {role : String}
    (hd : r.model? m = some (.datatype d)) (hT : r.object? d.template = some (.composite m f))
    (hx : f.get? role = some (.composite x)) (hn : r.modelOf? x = some n) : r.IsPlain x n := by
  have hplaced := Bounded.placed h hd hT hx
  obtain ⟨-, e, -, -, he⟩ := hplaced.model n hn
  obtain ⟨g, ho⟩ := h.wellFormed.composite_of_modelOf? he hn
  rcases h.wellFormed.instance_kind ho he with htemplate | ⟨htemplate, halias, -⟩
  · exact (hplaced.noTemplate n e he htemplate.symm).elim
  · exact ⟨g, e, ho, he, htemplate, halias⟩

/-- So it comes to what the datatype that it is bound to leads to. -/
theorem Fitting.comesTo_iff (h : r.Fitting) {d : Datatype κ} {f : Table String Value}
    {role : String} (hd : r.model? m = some (.datatype d))
    (hT : r.object? d.template = some (.composite m f))
    (hx : f.get? role = some (.composite x)) :
    r.ComesTo x goal ↔ ∃ n, r.modelOf? x = some n ∧ ReflTransGen r.Contains n goal := by
  constructor
  · rintro ⟨t, n, hresolve, hn, hpath⟩
    obtain rfl := h.wellFormed.seed_of_noTemplate (Bounded.placed h hd hT hx).noTemplate
      (resolve_plain_iff.mp hresolve)
    exact ⟨n, hn, hpath⟩
  · rintro ⟨n, hn, hpath⟩
    exact (comesTo_iff_of_plain (h.isPlain hd hT hx hn).seed hn).mpr hpath

/-! ## Instances -/

/-- A copy holds what the composite that it is a copy of comes to, if instances do, and nothing if
it is a copy of anything else. -/
theorem ReproducesWith.embedsNew_iff {made : ObjectId → String → Value → Prop} {under : String}
    {w : Value} (h : r.ReproducesWith made under v w)
    (hmade : ∀ x, made x under w → (r.EmbedsNew since w goal ↔ r.ComesTo x goal)) :
    r.EmbedsNew since w goal ↔ ∃ x, v = .composite x ∧ r.ComesTo x goal := by
  cases h with
  | held hv hfollows =>
    refine iff_of_false (not_embedsNew ?_) ?_
    · cases hfollows with
      | composite => simp [Value.composite?] at hv
      | _ => rfl
    · rintro ⟨x, rfl, -⟩
      simp [Value.composite?] at hv
  | @made x _ h =>
    refine (hmade x h).trans ⟨fun hcomes => ⟨x, rfl, hcomes⟩, ?_⟩
    rintro ⟨x', hx', hcomes⟩
    rwa [Value.composite.inj hx']

/-- An instance holds composites of exactly those datatypes that its own one comes to. By induction
on the depth: the fields of a composite are copies of those of its template. -/
theorem Instantiates.embedsNew_iff (hfit : r.Fitting) (hgoal : r.isLeaf goal = false)
    {under : String} (hv : r.Instantiates since depth id under v) :
    r.EmbedsNew since v goal ↔ r.ComesTo id goal := by
  induction depth generalizing id under v with
  | zero => exact hv.elim
  | succ depth ih =>
    cases hv with
    | nested hseed hform hv =>
      obtain ⟨-, capacities, -, rfl⟩ := nestedForm_ok_iff.mp hform
      cases hv
      exact iff_of_false (not_embedsNew rfl) (not_comesTo_of_nested hseed)
    | @leaf t m hseed hplain hleaf =>
      refine iff_of_false (not_embedsNew rfl) ?_
      rw [comesTo_iff_of_plain hseed hplain.modelOf?, Relation.ReflTransGen.cases_head_iff]
      rintro (rfl | ⟨n, hmn, -⟩)
      · simp [hleaf] at hgoal
      · exact hfit.not_contains hleaf hmn
    | @composite t y m d fT f hseed hplain hd hleaf hT hnew hy hname hfields =>
      have hfT : r.fields? d.template = some fT := fields?_eq_some_iff.mpr ⟨m, hT⟩
      have hm : r.modelOf? y = some m := modelOf?_of_object? hy
      rw [embedsNew_composite_iff, comesTo_iff_of_plain hseed hplain.modelOf?,
        Relation.ReflTransGen.cases_head_iff]
      refine or_congr ⟨fun h => ?_, fun h => ⟨hnew, h ▸ hm⟩⟩ ⟨?_, ?_⟩
      · exact Option.some.inj (hm.symm.trans h.2)
      · -- A field of the instance is a copy of the same field of the template.
        rintro ⟨role, w, hw, hembeds⟩
        obtain ⟨k, g, hy', hw⟩ := field?_eq_some_iff.mp hw
        obtain ⟨-, rfl⟩ := composite_unique hy hy'
        obtain ⟨a, ha, haw⟩ := hfields.symm.of_get? hw
        obtain ⟨x, rfl, hcomes⟩ := (haw.embedsNew_iff fun _ => ih).mp hembeds
        obtain ⟨n, hn, hpath⟩ := (hfit.comesTo_iff hd hT ha).mp hcomes
        exact ⟨n, ⟨d, fT, role, x, hd, hfT, ha, hn⟩, hpath⟩
      · -- A field of the template has a copy in the instance.
        rintro ⟨n, ⟨e, g, role, x, he, hg, hx, hn⟩, hpath⟩
        obtain rfl := datatype_unique hd he
        obtain rfl := Option.some.inj (hfT.symm.trans hg)
        obtain ⟨w, hw, hxw⟩ := hfields.of_get? hx
        refine ⟨role, w, field?_eq_some_iff.mpr ⟨m, f, hy, hw⟩, ?_⟩
        exact (hxw.embedsNew_iff fun _ => ih).mpr
          ⟨x, rfl, (hfit.comesTo_iff hd hT hx).mpr ⟨n, hn, hpath⟩⟩

/-- No datatype has become a leaf. -/
theorem Extends.isLeaf_eq_false (hext : r.Extends r') (h : r.isLeaf m = false) :
    r'.isLeaf m = false := by
  cases hkind : r'.kindOf? m with
  | none => simp [isLeaf, hkind]
  | some kind =>
    obtain ⟨d', hd', rfl⟩ := kindOf?_eq_some_iff.mp hkind
    obtain ⟨d, g, hd, rfl⟩ := hext.datatype_of hd'
    rw [isLeaf_datatype hd']
    rwa [isLeaf_datatype hd] at h

/-- Making an instance does not change what templates contain, as long as what they refer to is
alive. -/
theorem LiveTemplates.contains_eq (hlive : r.LiveTemplates) (hr : r.WellFormed)
    (hext : r.Extends r') : r'.Contains = r.Contains := by
  have hfields : ∀ {m d}, r.model? m = some (.datatype d) →
      r'.fields? d.template = r.fields? d.template := fun hd => by
    simp only [fields?, hext.object? (hr.template_lt hd)]
  funext m n
  refine propext ⟨?_, ?_⟩
  · rintro ⟨d', f, role, x, hd', hf, hx, hn⟩
    obtain ⟨d, g, hd, rfl⟩ := hext.datatype_of hd'
    have hf : r.fields? d.template = some f := (hfields hd).symm.trans hf
    obtain ⟨o, ho⟩ := isLive_iff.mp (hlive hd hf (Table.mem_values_of_get? hx) rfl)
    rw [hext.modelOf? (index_lt_of_object? ho)] at hn
    exact ⟨d, f, role, x, hd, hf, hx, hn⟩
  · rintro ⟨d, f, role, x, hd, hf, hx, hn⟩
    obtain ⟨g, hd'⟩ := hext.datatype hd
    obtain ⟨o, ho, -⟩ := modelOf?_eq_some_iff.mp hn
    exact ⟨_, f, role, x, hd', (hfields hd).trans hf, hx,
      (hext.modelOf? (index_lt_of_object? ho)).trans hn⟩

/-- Nor does it change what a datatype comes to, if instances can be made of it at all. -/
theorem LiveTemplates.comesTo_iff (hlive : r.LiveTemplates) (hr : r.Annotated)
    (hext : r.Extends r') {seed : Seed} (hseed : r.seed id = .ok seed) :
    r'.ComesTo id goal ↔ r.ComesTo id goal := by
  have hsame : r.SameBut (fun _ => False) (fun _ => False) r' := hext.sameBut
  have hseed' : r'.seed id = .ok seed := (hsame.retainsAliases hr).seed hseed
  cases seed with
  | nested element q =>
    exact iff_of_false (not_comesTo_of_nested hseed') (not_comesTo_of_nested hseed)
  | plain t =>
    obtain ⟨⟨m, hplain⟩, -⟩ := seed_plain hseed
    obtain ⟨f, ho⟩ := hplain.object?
    have hm' : r'.modelOf? t = some m := modelOf?_of_object? (hext.object?_some ho)
    rw [comesTo_iff_of_plain hseed' hm', comesTo_iff_of_plain hseed hplain.modelOf?,
      hlive.contains_eq hr.wellFormed hext]

/-! ## The search -/

/-- Asking what a datatype reaches is a search that is right about what instances of the datatype
hold. -/
structure ReachesExactly (r : Repository ts) (datatype : ObjectId) (goal : ModelId) : Prop where
  /-- Where the aliases come to an end, the search answers, and says yes exactly if none of them
  carries dimensions and the datatype at their end is the goal, or leads to it from one datatype to
  a composite in its template, and on from the datatype of that. -/
  answers : ∀ {resolved}, r.resolve datatype = .ok resolved →
    ∃ b, r.reachesModel datatype goal = .ok b ∧ (b = true ↔ resolved.qualifiers = [] ∧
      ∃ m, r.modelOf? resolved.target = some m ∧ ReflTransGen r.Contains m goal)
  /-- The answer is that of a loop that comes to an end by itself. -/
  ends : ∀ {t m}, r.resolve datatype = .ok ⟨[], t⟩ → r.modelOf? t = some m →
    ∃ b, r.Searched goal [] [m] b ∧ r.reachesModel datatype goal = .ok b
  /-- If an instance can be made, the search says yes exactly if the instance is, or holds outside
  of collections, a composite of the goal that is made with it. -/
  embeds : r.isLeaf goal = false → ∀ {under owned v},
    ((Step.newInstance datatype under owned).run r).answer = .ok v →
    (r.reachesModel datatype goal = .ok true ↔
      ((Step.newInstance datatype under owned).run r).repo.EmbedsNew r.objects.size v goal)

/-- The search answers what the loop ends with. -/
theorem reachesModel_of_resolve (hr : r.WellFormed) (hlive : r.LiveTemplates) (hfit : r.Fitting)
    {t : ObjectId} (hresolve : r.resolve id = .ok ⟨[], t⟩) :
    ∃ m b, r.modelOf? t = some m ∧ r.reachesModel id goal = .ok b ∧ r.Searched goal [] [m] b ∧
      (b = true ↔ ReflTransGen r.Contains m goal) := by
  obtain ⟨⟨m, hplain⟩, -⟩ := seed_plain (resolve_plain_iff.mp hresolve)
  obtain ⟨d, hd, -⟩ := hplain.datatype
  obtain ⟨b, hsearch, hb, hiff⟩ := search_exact hr hlive hfit hd goal
  refine ⟨m, b, hplain.modelOf?, bind_eq_ok_iff.mpr ⟨_, hresolve, ?_⟩, hb, hiff⟩
  rw [if_pos rfl]
  exact bind_eq_ok_iff.mpr ⟨m, modelOf_eq_ok_iff.mpr hplain.modelOf?, hsearch⟩

theorem reachesModel_of_qualifiers {resolved : Resolved} (hresolve : r.resolve id = .ok resolved)
    (hne : resolved.qualifiers ≠ []) : r.reachesModel id goal = .ok false :=
  bind_eq_ok_iff.mpr ⟨resolved, hresolve, if_neg hne⟩

theorem reachesModel_eq_true_iff (hr : r.WellFormed) (hlive : r.LiveTemplates) (hfit : r.Fitting) :
    r.reachesModel id goal = .ok true ↔ r.ComesTo id goal := by
  constructor
  · intro h
    obtain ⟨⟨qs, t⟩, hresolve, hsearch⟩ := bind_eq_ok_iff.mp h
    obtain rfl : qs = [] := by
      by_contra hne
      simp [reachesModel_of_qualifiers hresolve hne] at h
    obtain ⟨m, b, hm, hb, -, hiff⟩ := reachesModel_of_resolve hr hlive hfit hresolve
    obtain rfl := Except.ok.inj (h.symm.trans hb)
    exact ⟨t, m, hresolve, hm, hiff.mp rfl⟩
  · rintro ⟨t, m, hresolve, hm, hpath⟩
    obtain ⟨m', b, hm', hb, -, hiff⟩ := reachesModel_of_resolve hr hlive hfit hresolve
    obtain rfl := Option.some.inj (hm.symm.trans hm')
    rw [hb, hiff.mpr hpath]

theorem reachesExactly (hr : r.Annotated) (hlive : r.LiveTemplates) (hfit : r.Fitting)
    (datatype : ObjectId) (goal : ModelId) : r.ReachesExactly datatype goal where
  answers {resolved} hresolve := by
    obtain ⟨qs, t⟩ := resolved
    by_cases hqs : qs = []
    · subst hqs
      obtain ⟨m, b, hm, hb, -, hiff⟩ := reachesModel_of_resolve hr.wellFormed hlive hfit hresolve
      refine ⟨b, hb, hiff.trans ⟨fun hpath => ⟨rfl, m, hm, hpath⟩, ?_⟩⟩
      rintro ⟨-, m', hm', hpath⟩
      obtain rfl := Option.some.inj (hm.symm.trans hm')
      exact hpath
    · exact ⟨false, reachesModel_of_qualifiers hresolve hqs, by simp [hqs]⟩
  ends hresolve hm := by
    obtain ⟨m', b, hm', hb, hsearched, -⟩ :=
      reachesModel_of_resolve hr.wellFormed hlive hfit hresolve
    obtain rfl := Option.some.inj (hm.symm.trans hm')
    exact ⟨b, hsearched, hb⟩
  embeds hgoal {under owned v} hv := by
    obtain ⟨hgrew, hinstance⟩ := (Step.newInstance_ensures_iff.mpr
      (Step.instantiate_makesInstance hr (Nat.le_refl _) owned _ datatype under)).ok_of_answer hv
    obtain ⟨seed, hseed⟩ : ∃ seed, r.seed datatype = .ok seed := by
      cases hseed : r.seed datatype with
      | ok seed => exact ⟨seed, rfl⟩
      | error e => simp [Step.run_newInstance_of_error hseed] at hv
    rw [reachesModel_eq_true_iff hr.wellFormed hlive hfit,
      hinstance.embedsNew_iff (hfit.grew hgrew) (hgrew.2.isLeaf_eq_false hgoal),
      hlive.comesTo_iff hr hgrew.2 hseed]

end Repository

namespace Idl

open Repository (Fitting annotated_robust)

variable {limits : Limits} {r : Repository (system limits)}

/-! ## Runs of the facade -/

theorem fitting_declarative : Repository.Declarative (@Fitting _ (system limits)) where
  wellFormed h := h.wellFormed
  addTemplate name kind h := h.addTemplate name kind
  mapEntries m f _ h := h.mapDatatype (h.wellFormed.mapEntries m f) fun _ => ⟨rfl, rfl⟩
  putQualifiers m qs h := h.mapDatatype (h.wellFormed.putQualifiers m qs) fun _ => ⟨rfl, rfl⟩
  putScope m _ h hs := h.mapDatatype (h.wellFormed.putScope m hs) fun _ => ⟨rfl, rfl⟩

/-- Structures and unions are no leaves, and enumerations get plain data only. -/
theorem discerning_fitting : Discerning (@Fitting _ (system limits)) where
  wellFormed h := h.wellFormed
  grew h hr' := h.grew hr'
  addTemplate name kind h := h.addTemplate name kind
  putQualifiers m qs h := fitting_declarative.putQualifiers m qs h
  mapEntries f _ h _ := h.mapDatatype (h.wellFormed.mapEntries _ f) fun _ => ⟨rfl, rfl⟩
  removeEntry m role h := h.mapDatatype (h.wellFormed.mapEntries m _) fun _ => ⟨rfl, rfl⟩
  write role h hr' hv hkind ho := by
    obtain ⟨d, hd⟩ := hr'.1.composite ho
    refine h.writeNew hr' hv hd ?_ ho role
    rcases hkind with hkind | hkind
    · obtain ⟨e, he, hkind⟩ := Repository.kindOf?_eq_some_iff.mp hkind
      rw [Repository.datatype_unique hd he, hkind]
      rfl
    · obtain ⟨e, he, hkind⟩ := Repository.kindOf?_eq_some_iff.mp hkind
      rw [Repository.datatype_unique hd he, hkind]
      rfl
  leaf x role v hv h := h.writeLeaf x role fun w hw => Option.some.inj hw ▸ hv
  erase x role h := h.writeLeaf x role (by simp)
  release m h := fitting_declarative.putScope m h (by simp [Repository.MayEnclose])
  enclose {r child scope n k} h _ hk _ := by
    obtain ⟨-, e, he, -⟩ := Repository.canonicalModel_eq_ok_iff.mp hk
    have hscoped : (r.putScope n (some k)).Fitting :=
      fitting_declarative.putScope n h fun k' hk' => ⟨e, Option.some.inj hk' ▸ he⟩
    exact hscoped.mapDatatype (hscoped.wellFormed.mapEntries k _) fun _ => ⟨rfl, rfl⟩
  writeElement id index v h := h.writeElement id index v
  free h hid := h.free hid

/-- A constructor or an edit of the facade, any other edit of a declaration that neither defines a
member nor sets a base, or an operation on instances and collections, other than a direct update. -/
def Operation.MembersThroughFacade : Operation → Prop
  | repository operation => match operation with
    | .populateTemplate _ _ | .appendEntry _ _ | .defineMember _ _ | .setBase _ _ => False
    | .updateInstances _ _ _ => False
    | _ => True
  | _ => True

theorem Operation.perform_fitting (h : r.Fitting) {operation : Operation}
    (hop : operation.MembersThroughFacade) : (operation.perform r).Fitting := by
  by_cases hfacade : operation.ThroughFacade
  · exact perform_discerning discerning_fitting h hfacade
  · cases operation with
    | repository inner =>
      cases inner with
      -- What encloses a datatype does not matter for what is held.
      | setScope template scope =>
        exact (Step.keeps_setScope fitting_declarative.putScope template scope).repo h
      | addToScope scope child =>
        exact (Step.keeps_addToScope fitting_declarative scope child).repo h
      | _ => exact (hfacade hop).elim
    | _ => exact (hfacade trivial).elim

theorem fitting_initial : (initial limits).Fitting :=
  initial_of_addTemplate (fun name _ _ h => h.addTemplate name _)
    ⟨Repository.wellFormed_empty, fun hd => by simp at hd⟩

/-- In every state of a run in which members and bases are set by the facade only, and no instances
are updated directly, as long as everything that canonical templates refer to is alive: asking
whether a datatype reaches another one comes to an end, is right about what templates contain, and
is right about what an instance of the datatype would hold outside of collections. -/
theorem reachesExactly_of_reached
    (h : Reached Operation.perform (fun _ operation => operation.MembersThroughFacade)
      (initial limits) r)
    (hlive : r.LiveTemplates) (datatype : ObjectId) (goal : ModelId) :
    r.ReachesExactly datatype goal := by
  have hfit : r.Fitting := h.invariant fitting_initial fun _ _ hs hop =>
    Operation.perform_fitting hs hop
  have hr : r.Annotated := h.invariant (Operation.annotated_run limits []) fun _ operation hs _ =>
    operation.perform_robust annotated_robust hs
  exact Repository.reachesExactly hr hlive hfit datatype goal

/-- A line starts at a point, and a path is a sequence of lines. The line is found to reach the
point, and an instance of it holds one; the path does not reach the line. -/
theorem reachesExactly_path :
    let r := Operation.run (initial ⟨4, 4⟩)
      [.newStruct "Point" [], .newStruct "Line" [.member ⟨"start", ⟨21⟩, [], []⟩],
        .newStruct "Path" [.member ⟨"lines", ⟨22⟩, [sequence (.size 3)], []⟩]]
    Reached Operation.perform (fun _ operation => operation.MembersThroughFacade)
        (initial ⟨4, 4⟩) r ∧ r.LiveTemplates ∧
      r.reachesModel ⟨22⟩ ⟨21⟩ = .ok true ∧
      ((Step.newInstance ⟨22⟩ "x" false).run r).repo.EmbedsNew r.objects.size
        (.composite ⟨27⟩) ⟨21⟩ ∧
      r.resolve ⟨24⟩ = .ok ⟨[], ⟨24⟩⟩ ∧ ¬ ReflTransGen r.Contains ⟨23⟩ ⟨22⟩ := by
  intro r
  have hsize : r.models.size = 25 := by decide +kernel
  have htemplates : ∀ i < 25, ∀ f ∈ (r.template? ⟨i⟩).bind r.fields?, ∀ v ∈ f.values,
      v.object?.all r.isLive = true := by decide +kernel
  have hline : r.reachesModel ⟨22⟩ ⟨21⟩ = .ok true := by decide +kernel
  have hanswer : ((Step.newInstance ⟨22⟩ "x" false).run r).answer = .ok (.composite ⟨27⟩) := by
    decide +kernel
  have hpath : r.reachesModel ⟨24⟩ ⟨22⟩ = .ok false := by decide +kernel
  have hresolve : r.resolve ⟨24⟩ = .ok ⟨[], ⟨24⟩⟩ := by decide +kernel
  have hmodel : r.modelOf? ⟨24⟩ = some ⟨23⟩ := by decide +kernel
  have hleaf : r.isLeaf ⟨21⟩ = false := by decide +kernel
  have h : Reached Operation.perform (fun _ operation => operation.MembersThroughFacade)
      (initial ⟨4, 4⟩) r := by
    simp only [r, Operation.run, List.foldl_cons, List.foldl_nil]
    exact .next (.next (.next .start trivial) trivial) trivial
  clear_value r
  have hlive : r.LiveTemplates := by
    intro m d f v x hd hf hv hx
    have hlt : m.index < 25 := hsize ▸ Repository.index_lt_of_model? hd
    have hfound : (r.template? ⟨m.index⟩).bind r.fields? = some f := by
      rw [Repository.template?_datatype hd, Option.bind_some, hf]
    simpa [hx] using htemplates m.index hlt f hfound v hv
  obtain ⟨b, hb, hiff⟩ := (reachesExactly_of_reached h hlive ⟨24⟩ ⟨22⟩).answers hresolve
  obtain rfl := Except.ok.inj (hpath.symm.trans hb)
  refine ⟨h, hlive, hline, ?_, hresolve, fun hreaches => ?_⟩
  · exact ((reachesExactly_of_reached h hlive ⟨22⟩ ⟨21⟩).embeds hleaf hanswer).mp hline
  · simpa using hiff.mpr ⟨rfl, ⟨23⟩, hmodel, hreaches⟩

end Idl

end Metamodel
