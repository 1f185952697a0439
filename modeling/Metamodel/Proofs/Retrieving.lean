import Metamodel.Proofs.Discerning
import Metamodel.Proofs.Enclosure

/-!
# Metamodel.Proofs.Retrieving -- what a name finds

That a datatype is in a module is recorded twice: in the datatype, which knows the module, and in
the module, which lists the datatype. A datatype that leaves a module stays in its list, where it is
passed over, and counts again when it comes back. Main statement: however modules are filled and
datatypes are moved between them, a module finds exactly what is in it, each name the first of those
that have it; and where no two have the same, following the names that lead from a namespace to a
datatype finds the datatype.
-/

namespace Metamodel

namespace Idl

variable {limits : Limits} {r r' : Repository (system limits)} {m n k : ModelId}
  {d : Datatype Kind} {name : String}

/-! ## Modules list what is in them -/

/-- What encloses a datatype is a module that lists it, and modules list canonical templates. -/
structure Catalogued (r : Repository (system limits)) : Prop where
  wellFormed : r.WellFormed
  enclosed : ∀ {m d k}, r.model? m = some (.datatype d) → d.scope = some k →
    ∃ e, r.model? k = some (.datatype e) ∧ e.kind = .module ∧ .type d.template ∈ e.entries
  canonical : ∀ {k e c}, r.model? k = some (.datatype e) → e.kind = .module → .type c ∈ e.entries →
    ∃ m d, r.model? m = some (.datatype d) ∧ d.template = c

/-- A datatype is what it was, and if it is a module, lists what it listed. -/
def ListsAlike (d d' : Datatype Kind) : Prop :=
  d'.kind = d.kind ∧ d'.template = d.template ∧
    (d.kind = .module → ∀ c, Entry.type c ∈ d'.entries ↔ Entry.type c ∈ d.entries)

namespace Catalogued

/-- No datatype goes into a namespace, and modules list what they listed. -/
theorem step (h : Catalogued r) (hr' : r'.WellFormed)
    (hthere : ∀ {m d}, r.model? m = some (.datatype d) →
      ∃ d', r'.model? m = some (.datatype d') ∧ ListsAlike d d')
    (hback : ∀ {m d'}, r'.model? m = some (.datatype d') →
      (∃ d, r.model? m = some (.datatype d) ∧ (d'.scope = none ∨ d'.scope = d.scope)) ∨
        d'.scope = none ∧ d'.entries = []) : Catalogued r' where
  wellFormed := hr'
  enclosed {m d' k} hd' hk := by
    rcases hback hd' with ⟨d, hd, hscope⟩ | ⟨hscope, -⟩
    · have hk₀ : d.scope = some k := by
        rcases hscope with hnone | hsame
        · simp [hk] at hnone
        · exact hsame.symm.trans hk
      obtain ⟨e, he, hmodule, hlisted⟩ := h.enclosed hd hk₀
      obtain ⟨e', he', hkind, -, hentries⟩ := hthere he
      obtain ⟨d'', hd'', -, htemplate, -⟩ := hthere hd
      obtain rfl := Repository.datatype_unique hd' hd''
      refine ⟨e', he', hkind.trans hmodule, (hentries hmodule _).mpr ?_⟩
      rwa [htemplate]
    · simp [hk] at hscope
  canonical {k e' c} he' hmodule hc := by
    rcases hback he' with ⟨e, he, -⟩ | ⟨-, hentries⟩
    · obtain ⟨e'', he'', hkind, -, hentries⟩ := hthere he
      obtain rfl := Repository.datatype_unique he' he''
      have hmodule₀ := hkind.symm.trans hmodule
      obtain ⟨m, d, hd, rfl⟩ := h.canonical he hmodule₀ ((hentries hmodule₀ c).mp hc)
      obtain ⟨d', hd', -, htemplate, -⟩ := hthere hd
      exact ⟨m, d', hd', htemplate⟩
    · simp [hentries] at hc

/-- Registries do not matter. -/
theorem of_registries (h : Catalogued r) (hr' : r'.WellFormed)
    (hthere : ∀ {m d}, r.model? m = some (.datatype d) →
      ∃ g, r'.model? m = some (.datatype { d with registry := g }))
    (hback : ∀ {m d'}, r'.model? m = some (.datatype d') →
      ∃ d g, r.model? m = some (.datatype d) ∧ d' = { d with registry := g }) :
    Catalogued r' := by
  refine h.step hr' (fun hd => ?_) fun hd' => ?_
  · obtain ⟨g, hd'⟩ := hthere hd
    exact ⟨_, hd', rfl, rfl, fun _ _ => Iff.rfl⟩
  · obtain ⟨d, g, hd, rfl⟩ := hback hd'
    exact Or.inl ⟨d, hd, Or.inr rfl⟩

theorem of_models (h : Catalogued r) (hr' : r'.WellFormed) (hmodels : r'.models = r.models) :
    Catalogued r' := by
  have hsame : ∀ m, r'.model? m = r.model? m := fun m => by simp only [Repository.model?, hmodels]
  refine h.of_registries hr' (fun {m d} hd => ⟨d.registry, ?_⟩) fun {m d} hd => ⟨d, d.registry, ?_⟩
  · rw [hsame, hd]
  · exact ⟨(hsame m).symm.trans hd, rfl⟩

theorem mapDatatype (h : Catalogued r) {f : Datatype Kind → Datatype Kind}
    (hr' : (r.mapDatatype m f).WellFormed)
    (hlists : ∀ d, r.model? m = some (.datatype d) → ListsAlike d (f d))
    (hscope : ∀ d, (f d).scope = none ∨ (f d).scope = d.scope) :
    Catalogued (r.mapDatatype m f) := by
  refine h.step hr' (fun {n d} hd => ?_) fun {n d'} hd' => ?_
  · refine ⟨_, Repository.model?_mapDatatype_datatype.mpr ⟨d, hd, rfl⟩, ?_⟩
    split
    · next hn => exact hlists d (hn ▸ hd)
    · exact ⟨rfl, rfl, fun _ _ => Iff.rfl⟩
  · obtain ⟨d, hd, rfl⟩ := Repository.model?_mapDatatype_datatype.mp hd'
    refine Or.inl ⟨d, hd, ?_⟩
    split
    · exact hscope d
    · exact Or.inr rfl

theorem addTemplate (h : Catalogued r) (name : String) (kind : Kind) :
    Catalogued (r.addTemplate name kind) := by
  refine h.step (h.wellFormed.addTemplate name kind) (fun {m d} hd => ?_) fun {m d'} hd' => ?_
  · refine ⟨d, ?_, rfl, rfl, fun _ _ => Iff.rfl⟩
    rw [Repository.model?_addTemplate, if_neg (Repository.ne_nextModel hd), hd]
  · rw [Repository.model?_addTemplate] at hd'
    split at hd'
    · -- The new datatype is in no namespace and lists nothing.
      obtain rfl := Model.datatype.inj (Option.some.inj hd')
      exact Or.inr ⟨rfl, rfl⟩
    · exact Or.inl ⟨d', hd', Or.inr rfl⟩

end Catalogued

theorem mem_listed {c child : ObjectId} {entries : List Entry} :
    Entry.type c ∈ listed child entries ↔ c = child ∨ Entry.type c ∈ entries := by
  unfold listed
  split
  · next hthere =>
    refine ⟨Or.inr, ?_⟩
    rintro (rfl | hc)
    · exact List.contains_iff_mem.mp hthere
    · exact hc
  · simp [or_comm]

/-- What a datatype is after one has been put into a module. -/
theorem model?_enclose (hm : r.model? m = some (.datatype d)) (n k : ModelId) (child : ObjectId) :
    ∃ d', ((r.putScope n (some k)).mapEntries k (listed child)).model? m = some (.datatype d') ∧
      d'.kind = d.kind ∧ d'.template = d.template ∧
      d'.scope = (if m = n then some k else d.scope) ∧
      d'.entries = if m = k then listed child d.entries else d.entries := by
  refine ⟨_, Repository.model?_mapDatatype_datatype.mpr
    ⟨_, Repository.model?_mapDatatype_datatype.mpr ⟨d, hm, rfl⟩, rfl⟩, ?_⟩
  split_ifs <;> exact ⟨rfl, rfl, rfl, rfl⟩

/-- Every datatype was one before. -/
theorem datatype_of_enclose {d' : Datatype Kind} {child : ObjectId}
    (hm : ((r.putScope n (some k)).mapEntries k (listed child)).model? m = some (.datatype d')) :
    ∃ d, r.model? m = some (.datatype d) ∧ d'.kind = d.kind ∧ d'.template = d.template ∧
      d'.scope = (if m = n then some k else d.scope) ∧
      d'.entries = if m = k then listed child d.entries else d.entries := by
  obtain ⟨d₁, hd₁, -⟩ := Repository.model?_mapDatatype_datatype.mp hm
  obtain ⟨d, hd, -⟩ := Repository.model?_mapDatatype_datatype.mp hd₁
  obtain ⟨d'', hd'', hsame⟩ := model?_enclose hd n k child
  obtain rfl := Repository.datatype_unique hm hd''
  exact ⟨d, hd, hsame⟩

/-- The datatype and the module are changed together. -/
theorem Catalogued.enclose (h : Catalogued r) {child : ObjectId}
    (hchild : r.canonicalModel child = .ok n) (hmodule : r.kindOf? k = some .module) :
    Catalogued ((r.putScope n (some k)).mapEntries k (listed child)) := by
  obtain ⟨-, c, hc, rfl⟩ := Repository.canonicalModel_eq_ok_iff.mp hchild
  obtain ⟨s, hs, hkind⟩ := Repository.kindOf?_eq_some_iff.mp hmodule
  have hmay : r.MayEnclose (some k) := fun j hj => ⟨s, Option.some.inj hj ▸ hs⟩
  refine ⟨(h.wellFormed.putScope n hmay).mapEntries k _, fun {m d' j} hd' hj => ?_,
    fun {j e' x} he' hmodule' hx => ?_⟩
  · obtain ⟨d, hd, -, htemplate, hscope', -⟩ := datatype_of_enclose hd'
    rw [htemplate]
    by_cases hm : m = n
    · -- The datatype itself, which the module lists now.
      subst hm
      obtain rfl := Repository.datatype_unique hc hd
      obtain rfl : k = j := by simpa [hscope'] using hj
      obtain ⟨s', hs', hkind', -, -, hentries⟩ := model?_enclose hs m k c.template
      refine ⟨s', hs', hkind'.trans hkind, ?_⟩
      rw [hentries, if_pos rfl]
      exact mem_listed.mpr (Or.inl rfl)
    · rw [hscope', if_neg hm] at hj
      obtain ⟨e, he, hmodule', hlisted⟩ := h.enclosed hd hj
      obtain ⟨e', he', hkind', -, -, hentries⟩ := model?_enclose he n k c.template
      refine ⟨e', he', hkind'.trans hmodule', ?_⟩
      rw [hentries]
      split
      · exact mem_listed.mpr (Or.inr hlisted)
      · exact hlisted
  · obtain ⟨e, he, hkind', -, -, hentries⟩ := datatype_of_enclose he'
    have hthere : ∃ m d, r.model? m = some (.datatype d) ∧ d.template = x := by
      have hcanonical : Entry.type x ∈ e.entries →
          ∃ m d, r.model? m = some (.datatype d) ∧ d.template = x :=
        h.canonical he (hkind'.symm.trans hmodule')
      rw [hentries] at hx
      split at hx
      · rcases mem_listed.mp hx with rfl | hx
        · exact ⟨n, c, hc, rfl⟩
        · exact hcanonical hx
      · exact hcanonical hx
    obtain ⟨m, d, hd, rfl⟩ := hthere
    obtain ⟨d', hd', -, htemplate, -⟩ := model?_enclose hd n k c.template
    exact ⟨m, d', hd', htemplate⟩

theorem Catalogued.grew (h : Catalogued r) (hr' : Step.Grew r r') : Catalogued r' :=
  h.of_registries hr'.1 hr'.2.datatype hr'.2.datatype_of

theorem discerning_catalogued : Discerning (@Catalogued limits) where
  wellFormed := Catalogued.wellFormed
  grew h hr' := h.grew hr'
  addTemplate name kind h := h.addTemplate name kind
  putQualifiers m qs h := h.mapDatatype (h.wellFormed.putQualifiers m qs)
    (fun _ _ => ⟨rfl, rfl, fun _ _ => Iff.rfl⟩) fun _ => Or.inr rfl
  mapEntries {r m kind} f hkind h hk := by
    refine h.mapDatatype (h.wellFormed.mapEntries m f) (fun d hd => ⟨rfl, rfl, fun hmodule => ?_⟩)
      fun _ => Or.inr rfl
    obtain ⟨e, he, rfl⟩ := Repository.kindOf?_eq_some_iff.mp hk
    obtain rfl := Repository.datatype_unique hd he
    exact (hkind hmodule).elim
  removeEntry m role h := by
    refine h.mapDatatype (h.wellFormed.mapEntries m _) (fun d _ => ⟨rfl, rfl, fun _ c => ?_⟩)
      fun _ => Or.inr rfl
    simp [Entry.remove, Entry.declares, Entry.member?]
  write role h hr' _ _ _ := (h.grew hr').of_models (hr'.1.writeField _ role _) (by simp)
  leaf x role _ _ h := h.of_models (h.wellFormed.writeField x role _) (by simp)
  erase x role h := h.of_models (h.wellFormed.writeField x role _) (by simp)
  release m h := h.mapDatatype (h.wellFormed.putScope m (by simp [Repository.MayEnclose]))
    (fun _ _ => ⟨rfl, rfl, fun _ _ => Iff.rfl⟩) fun _ => Or.inl rfl
  enclose h hchild _ hmodule := h.enclose hchild hmodule
  writeElement id index v h := h.of_models (h.wellFormed.writeElement id index v) (by simp)
  free {r id} h hid := by
    refine h.of_registries (h.wellFormed.free hid) (fun {m d} hd => ?_) Repository.datatype_of_free
    have hd' := (@Repository.model?_free_datatype _ _ r id).mpr ⟨d, hd, rfl⟩
    split at hd'
    · exact ⟨_, hd'⟩
    · exact ⟨d.registry, hd'⟩

theorem catalogued_initial : Catalogued (initial limits) :=
  initial_of_addTemplate (fun name _ _ h => h.addTemplate name _)
    ⟨Repository.wellFormed_empty, fun hd => by simp at hd, fun he => by simp at he⟩

/-! ## What a look-up finds -/

/-- No two datatypes of one namespace have the same name. -/
def NamesApart (r : Repository (system limits)) : Prop :=
  ∀ m n k, r.scopeOf? m = some k → r.scopeOf? n = some k → r.nameOf m = r.nameOf n → m = n

/-- An object is bound to a model of that name that is in a namespace. -/
def NamedIn (r : Repository (system limits)) (k : ModelId) (name : String) (c : ObjectId) : Prop :=
  ∃ n, r.modelOf? c = some n ∧ r.nameOf n = name ∧ r.scopeOf? n = some k

/-- What a namespace answers for one of its entries. -/
def answer? (r : Repository (system limits)) (k : ModelId) (name : String) (entry : Entry) :
    Option ObjectId :=
  entry.target?.filter fun child =>
    (r.modelOf? child).any fun m => r.nameOf m == name && r.scopeOf? m == some k

theorem scopeLookup_eq {s : ObjectId} (hs : r.modelOf? s = some k) (name : String) :
    r.scopeLookup s name = (r.entriesOf k).findSome? (answer? r k name) := by
  simp only [Repository.scopeLookup, hs, Option.bind_some]
  rfl

theorem answer?_eq_some_iff {entry : Entry} {c : ObjectId} :
    answer? r k name entry = some c ↔ entry = .type c ∧ NamedIn r k name c := by
  cases entry with
  | type x =>
    simp only [answer?, Entry.target?, Option.filter_eq_some_iff, Option.some.injEq,
      Entry.type.injEq, Option.any_eq_true, Bool.and_eq_true, beq_iff_eq, NamedIn]
  | _ => simp [answer?, Entry.target?]

theorem answers_none_iff {before : List Entry} :
    before.findSome? (answer? r k name) = none ↔
      ∀ c, .type c ∈ before → ¬ NamedIn r k name c := by
  rw [List.findSome?_eq_none_iff]
  constructor
  · intro h c hc hnamed
    have hnone := h _ hc
    rw [answer?_eq_some_iff.mpr ⟨rfl, hnamed⟩] at hnone
    simp at hnone
  · intro h entry hentry
    cases hanswer : answer? r k name entry with
    | none => rfl
    | some c =>
      obtain ⟨rfl, hnamed⟩ := answer?_eq_some_iff.mp hanswer
      exact (h c hentry hnamed).elim

namespace Catalogued

/-- What a module lists is canonical for the model that it is bound to. -/
theorem canonicalModel (h : Catalogued r) (hk : r.kindOf? k = some .module) {c : ObjectId}
    (hc : .type c ∈ r.entriesOf k) (hn : r.modelOf? c = some n) : r.canonicalModel c = .ok n := by
  obtain ⟨e, he, hmodule⟩ := Repository.kindOf?_eq_some_iff.mp hk
  rw [Repository.entriesOf_datatype he] at hc
  obtain ⟨m, d, hd, rfl⟩ := h.canonical he hmodule hc
  obtain ⟨f, hf⟩ := h.wellFormed.template hd
  obtain rfl := Option.some.inj ((Repository.modelOf?_of_object? hf).symm.trans hn)
  exact Repository.canonicalModel_eq_ok_iff.mpr ⟨hn, d, hd, rfl⟩

/-- What is found is a canonical template of that name that is in the module. -/
theorem found (h : Catalogued r) (hk : r.kindOf? k = some .module) {s c : ObjectId}
    (hs : r.modelOf? s = some k) (hfound : r.scopeLookup s name = some c) :
    ∃ m, r.canonicalModel c = .ok m ∧ r.nameOf m = name ∧ r.scopeOf? m = some k := by
  rw [scopeLookup_eq hs] at hfound
  obtain ⟨entry, hentry, hanswer⟩ := List.exists_of_findSome?_eq_some hfound
  obtain ⟨rfl, n, hn, hname, hscope⟩ := answer?_eq_some_iff.mp hanswer
  exact ⟨n, h.canonicalModel hk hentry hn, hname, hscope⟩

theorem namedIn (h : Catalogued r) (hd : r.model? m = some (.datatype d)) (hk : d.scope = some k) :
    NamedIn r k d.name d.template := by
  obtain ⟨f, hf⟩ := h.wellFormed.template hd
  exact ⟨m, Repository.modelOf?_of_object? hf, by simp [Repository.nameOf, hd, Model.name],
    (Repository.scopeOf?_datatype hd).trans hk⟩

theorem kindOf?_scope (h : Catalogued r) (hd : r.model? m = some (.datatype d))
    (hk : d.scope = some k) : r.kindOf? k = some .module := by
  obtain ⟨e, he, hmodule, -⟩ := h.enclosed hd hk
  exact Repository.kindOf?_eq_some_iff.mpr ⟨e, he, hmodule⟩

/-- What is in a module is found there, unless something with its name is found before. -/
theorem first (h : Catalogued r) (hd : r.model? m = some (.datatype d)) (hk : d.scope = some k)
    {s : ObjectId} (hs : r.modelOf? s = some k) :
    ∃ before after, r.entriesOf k = before ++ .type d.template :: after ∧
      .type d.template ∉ before ∧
      (r.scopeLookup s d.name = some d.template ↔
        ∀ c, .type c ∈ before → ¬ NamedIn r k d.name c) := by
  obtain ⟨e, he, -, hlisted⟩ := h.enclosed hd hk
  obtain ⟨before, after, hentries, hfirst⟩ := List.eq_append_cons_of_mem hlisted
  refine ⟨before, after, (Repository.entriesOf_datatype he).trans hentries, hfirst, ?_⟩
  have hself : answer? r k d.name (.type d.template) = some d.template :=
    answer?_eq_some_iff.mpr ⟨rfl, h.namedIn hd hk⟩
  rw [scopeLookup_eq hs, Repository.entriesOf_datatype he, hentries, List.findSome?_append,
    List.findSome?_cons, hself, ← answers_none_iff]
  cases hbefore : before.findSome? (answer? r k d.name) with
  | none => simp
  | some c =>
    obtain ⟨entry, hentry, hanswer⟩ := List.exists_of_findSome?_eq_some hbefore
    obtain ⟨rfl, -⟩ := answer?_eq_some_iff.mp hanswer
    have hne : c ≠ d.template := fun heq => hfirst (heq ▸ hentry)
    simp [hne]

/-! ## Following a name -/

/-- Where names are apart, whatever is in a module is found there. -/
theorem finds (h : Catalogued r) (hnames : NamesApart r) (hd : r.model? m = some (.datatype d))
    (hk : d.scope = some k) {s : ObjectId} (hs : r.modelOf? s = some k) :
    r.scopeLookup s (r.nameOf m) = some d.template := by
  obtain ⟨before, after, hentries, hfirst, hfound⟩ := h.first hd hk hs
  have hname : r.nameOf m = d.name := by simp [Repository.nameOf, hd, Model.name]
  rw [hname, hfound]
  rintro c hc ⟨n, hn, hsame, hscope⟩
  obtain rfl : m = n :=
    hnames m n k ((Repository.scopeOf?_datatype hd).trans hk) hscope (hname.trans hsame.symm)
  have hlisted : .type c ∈ r.entriesOf k := hentries ▸ List.mem_append_left _ hc
  obtain ⟨-, d', hd', rfl⟩ :=
    Repository.canonicalModel_eq_ok_iff.mp (h.canonicalModel (h.kindOf?_scope hd hk) hlisted hn)
  obtain rfl := Repository.datatype_unique hd hd'
  exact hfirst hc

theorem toEnclosed (h : Catalogued r) : r.Enclosed where
  wellFormed := h.wellFormed
  scope hd k hk := by
    obtain ⟨e, he, -⟩ := h.enclosed hd hk
    exact ⟨e, he⟩

/-- The names on the way outwards, looked up in the other direction, lead back to where the way
starts. By induction on the way: what lies further in is looked up where the names outside lead. -/
theorem lookups_of_ascent (h : Catalogued r) (hnames : NamesApart r) {ms : List ModelId}
    (hms : r.Ascent m n ms) (hd : r.model? m = some (.datatype d)) (hn : r.scopeOf? n = some k)
    {a : ObjectId} (ha : r.modelOf? a = some k) :
    (ms.reverse.map r.nameOf).foldlM (fun s name => r.scopeLookup s name) a = some d.template := by
  induction hms generalizing d with
  | refl m =>
    have hk := (Repository.scopeOf?_datatype hd).symm.trans hn
    simpa using h.finds hnames hd hk ha
  | @outwards m o n ms hscope _ ih =>
    have ho := (Repository.scopeOf?_datatype hd).symm.trans hscope
    obtain ⟨e, he, -⟩ := h.enclosed hd ho
    obtain ⟨f, hf⟩ := h.wellFormed.template he
    rw [List.reverse_cons, List.map_append, List.foldlM_append, ih he hn]
    simpa using h.finds hnames hd ho (Repository.modelOf?_of_object? hf)

/-- The name of a datatype as seen from a namespace around it leads back from there. -/
theorem follows (h : Catalogued r) (hnames : NamesApart r) {t a : ObjectId} (ht : r.IsOf t m)
    (ha : r.IsOf a k) (hwithin : r.Within m k) (hne : k ≠ m) :
    ∃ n ms x, r.Ascent m n ms ∧ k ∉ ms ∧ r.scopeOf? n = some k ∧
      r.scopedName t (some a) = .ok (some (r.scopePath ms)) ∧ r.template? m = some x ∧
      (ms.reverse.map r.nameOf).foldlM (fun s name => r.scopeLookup s name) a = some x := by
  obtain ⟨between, hbetween⟩ := hwithin
  obtain ⟨n, ms, hms, hn, hout, hscope⟩ := hbetween.climb_inside hne
  have hne' : some k ≠ some m := fun heq => hne (Option.some.inj heq)
  obtain ⟨d, hd⟩ := ht.2
  exact ⟨n, ms, d.template, hn, hout, hscope,
    h.toEnclosed.scopedName_of_climb ht (.some ha) hne' hms, Repository.template?_datatype hd,
    h.lookups_of_ascent hnames hn hd hscope ha.1⟩

end Catalogued

/-- What names find in the modules of a repository. -/
structure Retrieves (r : Repository (system limits)) : Prop where
  /-- A module answers with a canonical template that has the name and is in the module. -/
  found : ∀ {s k name c}, r.kindOf? k = some .module → r.modelOf? s = some k →
    r.scopeLookup s name = some c →
      ∃ m, r.canonicalModel c = .ok m ∧ r.nameOf m = name ∧ r.scopeOf? m = some k
  /-- A datatype is listed by the namespace that it is in, and is found there by its name exactly
  if nothing that is listed before, and is still there, has that name. -/
  first : ∀ {m d k s}, r.model? m = some (.datatype d) → d.scope = some k → r.modelOf? s = some k →
    ∃ before after, r.entriesOf k = before ++ .type d.template :: after ∧
      .type d.template ∉ before ∧
      (r.scopeLookup s d.name = some d.template ↔
        ∀ c, .type c ∈ before → ¬ NamedIn r k d.name c)
  /-- Where names are apart, the names that make up the name of a datatype as seen from a namespace
  around it, looked up one after the other from there, lead to its canonical template. -/
  follows : NamesApart r → ∀ {t m a k}, r.IsOf t m → r.IsOf a k → r.Within m k → k ≠ m →
    ∃ n ms x, r.Ascent m n ms ∧ k ∉ ms ∧ r.scopeOf? n = some k ∧
      r.scopedName t (some a) = .ok (some (r.scopePath ms)) ∧ r.template? m = some x ∧
      (ms.reverse.map r.nameOf).foldlM (fun s name => r.scopeLookup s name) a = some x

/-- However modules are made and filled, and datatypes are moved between them, put into one twice,
taken out, and put back: what a module finds under a name is a canonical template of that name that
is in it; what is in it is found unless it lists one of the same name before that is in it too. And
where no two datatypes of one namespace have the same name, looking up the names that lead to a
datatype from a namespace around it leads to the datatype. -/
theorem retrieves_of_reached
    (h : Reached Operation.perform (fun _ operation => operation.ThroughFacade)
      (initial limits) r) : Retrieves r := by
  have hr : Catalogued r := h.invariant catalogued_initial fun _ _ hs hop =>
    Operation.perform_discerning discerning_catalogued hs hop
  exact ⟨fun hk hs => hr.found hk hs, fun hd hk hs => hr.first hd hk hs,
    fun hnames => hr.follows hnames⟩

/-- A structure leaves a module for the one around it and comes back: both list it, it is found
where it is, and the names of the module and the structure lead to it. -/
theorem retrieves_returned :
    let r := Operation.run (initial ⟨4, 4⟩)
      [.newModule "A" none, .newModule "B" (some ⟨21⟩), .newStruct "S" [],
        .addToModule ⟨22⟩ ⟨23⟩, .addToModule ⟨21⟩ ⟨23⟩, .addToModule ⟨22⟩ ⟨23⟩]
    Reached Operation.perform (fun _ operation => operation.ThroughFacade) (initial ⟨4, 4⟩) r ∧
      NamesApart r ∧ r.entriesOf ⟨21⟩ = [.type ⟨22⟩, .type ⟨23⟩] ∧
      r.scopeLookup ⟨21⟩ "S" = none ∧
      ∃ ms, r.scopedName ⟨23⟩ (some ⟨21⟩) = .ok (some (r.scopePath ms)) ∧
        (ms.reverse.map r.nameOf).foldlM (fun s name => r.scopeLookup s name) ⟨21⟩ =
          some ⟨23⟩ := by
  intro r
  have hscoped : ∀ i < 24, r.scopeOf? ⟨i⟩ ≠ none → i = 22 ∨ i = 23 := by decide +kernel
  have hsize : r.models.size = 24 := by decide +kernel
  have hnames : r.nameOf ⟨22⟩ ≠ r.nameOf ⟨23⟩ := by decide +kernel
  have hlisted : r.entriesOf ⟨21⟩ = [.type ⟨22⟩, .type ⟨23⟩] := by decide +kernel
  have hleft : r.scopeLookup ⟨21⟩ "S" = none := by decide +kernel
  have htemplate : r.template? ⟨23⟩ = some ⟨23⟩ := by decide +kernel
  have hkind : r.kindOf? ⟨21⟩ = some .module ∧ r.kindOf? ⟨23⟩ = some .struct := by decide +kernel
  have hmodel : r.modelOf? ⟨21⟩ = some ⟨21⟩ ∧ r.modelOf? ⟨23⟩ = some ⟨23⟩ := by decide +kernel
  have hscopes : r.scopeOf? ⟨23⟩ = some ⟨22⟩ ∧ r.scopeOf? ⟨22⟩ = some ⟨21⟩ := by decide +kernel
  have h : Reached Operation.perform (fun _ operation => operation.ThroughFacade)
      (initial ⟨4, 4⟩) r := by
    simp only [r, Operation.run, List.foldl_cons, List.foldl_nil]
    exact .next (.next (.next (.next (.next (.next .start trivial) trivial) trivial) trivial)
      trivial) trivial
  clear_value r
  have hin : ∀ {m k}, r.scopeOf? m = some k → m = ⟨22⟩ ∨ m = ⟨23⟩ := by
    intro m k hm
    have hlt : m.index < r.models.size := by
      obtain ⟨model, hmodel, -⟩ := Option.bind_eq_some_iff.mp hm
      exact Repository.index_lt_of_model? hmodel
    exact (hscoped m.index (hsize ▸ hlt) (by simp [hm])).imp ModelId.eq_iff.mpr
      ModelId.eq_iff.mpr
  have hapart : NamesApart r := by
    intro m n k hm hn hname
    rcases hin hm with rfl | rfl <;> rcases hin hn with rfl | rfl
    · rfl
    · exact (hnames hname).elim
    · exact (hnames hname.symm).elim
    · rfl
  have hisOf : ∀ {m kind}, r.modelOf? ⟨m⟩ = some ⟨m⟩ → r.kindOf? ⟨m⟩ = some kind →
      r.IsOf ⟨m⟩ ⟨m⟩ := fun hm hk => by
    obtain ⟨d, hd, -⟩ := Repository.kindOf?_eq_some_iff.mp hk
    exact ⟨hm, d, hd⟩
  have hwithin : r.Within ⟨23⟩ ⟨21⟩ :=
    ⟨_, .outwards hscopes.1 (.outwards hscopes.2 (.refl _))⟩
  obtain ⟨-, ms, x, -, -, -, hname, hx, hlead⟩ := (retrieves_of_reached h).follows hapart
    (hisOf hmodel.2 hkind.2) (hisOf hmodel.1 hkind.1) hwithin (by simp)
  obtain rfl := Option.some.inj (hx.symm.trans htemplate)
  exact ⟨h, hapart, hlisted, hleft, ms, hname, hlead⟩

end Idl

end Metamodel
