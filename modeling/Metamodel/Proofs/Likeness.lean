import Metamodel.Proofs.Forms

/-!
# Metamodel.Proofs.Likeness -- values of two repositories that look alike

Let two repositories go back to the same one. Their templates have fields of the same forms, made of
whatever objects, and so have composites that are registered under the same path, which look alike
for that reason. Main statement: a value that was there before the two went different ways looks the
same in both.
-/

namespace Metamodel.Repository

variable {κ : Type} {ts : TypeSystem κ} {r₀ r r' : Repository ts}

/-! ## Snapshots of any depth -/

/-- A snapshot may be given more depth than there are models. -/
theorem Consistent.snapshot_eq_of_depth (h : r.Consistent) {depth : Nat}
    (hdepth : r.models.size ≤ depth) {v : Value} (hv : r.Denotes v) :
    r.snapshot v = r.captureWith (r.captureComposite depth []) v := by
  refine ((Extends.refl r).captureWith_eq h.wellFormed (fun ho => ?_) hv).symm
  exact (Extends.refl r).captureComposite_eq h.wellFormed h.tidy List.nodup_nil (by simp) (by simp)
    hdepth ho

/-! ## Values of one form -/

/-- The element of nested collections is live. -/
def HoldsElement (r : Repository ts) : Form → Prop
  | .nested element _ _ => r.isLive element = true
  | _ => True

/-- Each value is in its repository what the other one is in the other; collections have elements
that were there in `r₀`. -/
inductive Alike (r₀ r r' : Repository ts) : Value → Value → Prop where
  | scalar (s : Scalar) : Alike r₀ r r' (.scalar s) (.scalar s)
  | form {form : Form} {v w : Value} (hv : r.HasForm form v) (hw : r'.HasForm form w)
      (helement : r₀.HoldsElement form) : Alike r₀ r r' v w

theorem Alike.denotes {v w : Value} (h : Alike r₀ r r' v w) : r.Denotes v ∧ r'.Denotes w := by
  cases h with
  | scalar s => exact ⟨trivial, trivial⟩
  | form hv hw => exact ⟨hv.denotes, hw.denotes⟩

/-- What follows values that are alike, under one path, is alike. -/
theorem Alike.follows {v w a b : Value} (h : Alike r₀ r r' v w) {under : String}
    (ha : r.Follows under v a) (hb : r'.Follows under w b) : Alike r₀ r r' a b := by
  cases h with
  | scalar s =>
    cases ha
    cases hb
    exact .scalar s
  | @form form _ _ hv hw helement =>
    exact .form (ha.hasForm hv) (hb.hasForm hw) (by cases form <;> exact helement)

/-- What denotes is a scalar or has a form, and the element of a collection is live. -/
theorem HasContents.form_of_denotes (hlive : r.HasContents) (hr : r.WellFormed) {v : Value}
    (hv : r.Denotes v) :
    (∃ s, v = .scalar s) ∨ ∃ form, r.HasForm form v ∧ r.HoldsElement form := by
  cases v with
  | scalar s => exact Or.inl ⟨s, rfl⟩
  | accessor path => exact Or.inr ⟨.leaf path, .leaf path, trivial⟩
  | composite x =>
    obtain ⟨m, f, ho⟩ := hv
    exact Or.inr ⟨.composite m (r.registeredName x), .composite ho rfl, trivial⟩
  | collection x =>
    obtain ⟨m, es, ho⟩ := hv
    obtain ⟨s, hs⟩ := hr.shape_of_collection ho
    have hnests : r.Nests s.element [s.capacity] s.name x := ⟨s, hs, rfl, rfl, rfl⟩
    exact Or.inr ⟨.nested s.element [s.capacity] s.name, .nested (by simp) hnests, hlive x s hs⟩

/-- A value that was there is alike in all repositories that go back to this one. -/
theorem HasContents.alike (hlive : r₀.HasContents) (hr₀ : r₀.WellFormed) (hr : r₀.Preserves r)
    (hr' : r₀.Preserves r') {v : Value} (hv : r₀.Denotes v) : Alike r₀ r r' v v := by
  rcases hlive.form_of_denotes hr₀ hv with ⟨s, rfl⟩ | ⟨form, hform, helement⟩
  · exact .scalar s
  · exact .form (hform.preserves hr) (hform.preserves hr') helement

/-! ## Two repositories -/

/-- Two repositories that go back to the same one, with the same datatypes, whose templates have
fields that are alike. -/
structure Parallel (r₀ r r' : Repository ts) : Prop where
  origin : r₀.WellFormed
  contents : r₀.HasContents
  left : r.Consistent
  right : r'.Consistent
  preserves_left : r₀.Preserves r
  preserves_right : r₀.Preserves r'
  template : ∀ {m d}, r.model? m = some (.datatype d) →
    r'.nameOf m = r.nameOf m ∧ ∃ f f', r.templateFields? m = some f ∧
      r'.templateFields? m = some f' ∧ f.Fieldwise (Alike r₀ r r') f'

namespace Parallel

variable (h : Parallel r₀ r r')

include h

theorem alike {v : Value} (hv : r₀.Denotes v) : Alike r₀ r r' v v :=
  h.contents.alike h.origin h.preserves_left h.preserves_right hv

variable {c b : ObjectId → Except Error Snapshot}
  (hc : ∀ {x y m f g}, r.object? x = some (.composite m f) →
    r'.object? y = some (.composite m g) → r.registeredName x = r'.registeredName y → c x = b y)

include hc

/-- An object that was there looks the same in both, if composites with one path do. By induction on
its number: an element is older than its collection. -/
theorem capture_eq_of_live {n : Nat} {e : ObjectId} (hn : e.index < n) (he : r₀.isLive e = true) :
    r.valueOf e >>= r.captureWith c = r'.valueOf e >>= r'.captureWith b := by
  induction n generalizing e with
  | zero => omega
  | succ n ih =>
    obtain ⟨o, ho⟩ := isLive_iff.mp he
    have hl := h.preserves_left e o ho
    have hr := h.preserves_right e o ho
    cases o with
    | composite m f =>
      obtain ⟨g, hg⟩ := hl.composite ho
      obtain ⟨g', hg'⟩ := hr.composite ho
      have hname : r.registeredName e = r'.registeredName e :=
        hl.registeredName.trans hr.registeredName.symm
      simp only [valueOf, object_eq_ok_iff.mpr hg, object_eq_ok_iff.mpr hg', Except.map, bind,
        Except.bind]
      exact hc hg hg' hname
    | collection m es =>
      obtain ⟨s, hs⟩ := h.origin.shape_of_collection ho
      have hlt := h.origin.element_lt hs
      have hinner := ih (by omega) (h.contents e s hs)
      rw [valueOf_of_shape (hl.shape hs), valueOf_of_shape (hr.shape hs)]
      show r.captureWith c (.collection e) = r'.captureWith b (.collection e)
      rw [captureWith_of_shape h.left.wellFormed (hl.shape hs),
        captureWith_of_shape h.right.wellFormed (hr.shape hs), hinner]

/-- Collections that are nested in the same way around an element that was there look alike. -/
theorem capture_eq_of_nests {element : ObjectId} (he : r₀.isLive element = true)
    {cs : List (Option Nat)} {name : String} {x y : ObjectId} (hx : r.Nests element cs name x)
    (hy : r'.Nests element cs name y) :
    r.valueOf x >>= r.captureWith c = r'.valueOf y >>= r'.captureWith b := by
  induction cs generalizing name x y with
  | nil =>
    obtain rfl : x = element := hx
    obtain rfl : y = x := hy
    exact h.capture_eq_of_live hc (Nat.lt_succ_self _) he
  | cons capacity inner ih =>
    obtain ⟨s, hs, rfl, rfl, hsinner⟩ := hx
    obtain ⟨t, ht, hname, hcapacity, htinner⟩ := hy
    rw [valueOf_of_shape hs, valueOf_of_shape ht]
    show r.captureWith c (.collection x) = r'.captureWith b (.collection y)
    rw [captureWith_of_shape h.left.wellFormed hs, captureWith_of_shape h.right.wellFormed ht,
      ih hsinner htinner, hname, hcapacity]

theorem captureWith_eq {v w : Value} (hvw : Alike r₀ r r' v w) :
    r.captureWith c v = r'.captureWith b w := by
  cases hvw with
  | scalar s => rfl
  | form hv hw helement =>
    cases hv with
    | leaf path =>
      cases hw
      rfl
    | composite hx hname =>
      cases hw with
      | composite hy hname' => exact hc hx hy (hname.trans hname'.symm)
    | nested hne hx =>
      cases hw with
      | nested _ hy =>
        have heq := h.capture_eq_of_nests hc helement hx hy
        rwa [hx.valueOf hne, hy.valueOf hne] at heq

omit hc

/-- Composites of one datatype with one path look alike. By induction on the depth: both follow
their template under the same path, and the two templates are alike. -/
theorem captureComposite_eq {depth : Nat} {within : List ModelId} {x y : ObjectId} {m : ModelId}
    {f g : Table String Value} (hx : r.object? x = some (.composite m f))
    (hy : r'.object? y = some (.composite m g))
    (hname : r.registeredName x = r'.registeredName y) :
    r.captureComposite depth within x = r'.captureComposite depth within y := by
  obtain ⟨d, hd⟩ := h.left.wellFormed.composite hx
  obtain ⟨d', hd'⟩ := h.right.wellFormed.composite hy
  obtain ⟨hcalled, fT, fT', hfT, hfT', htemplates⟩ := h.template hd
  induction depth generalizing within x y m f g d d' fT fT' with
  | zero => rw [captureComposite_zero hx, captureComposite_zero hy, hcalled]
  | succ depth ih =>
    obtain ⟨tT, hT⟩ := h.left.wellFormed.template hd
    obtain ⟨tT', hT'⟩ := h.right.wellFormed.template hd'
    rw [templateFields?_eq hd hT, Option.some_inj] at hfT
    rw [templateFields?_eq hd' hT', Option.some_inj] at hfT'
    subst hfT hfT'
    have hf := h.left.follows_template hx hd hT
    have hg := h.right.follows_template hy hd' hT'
    rw [hname] at hf
    have hto : f.Fieldwise (fun a w => ∃ v, r.Follows (r'.registeredName y) v a ∧
        Alike r₀ r r' v w) tT' :=
      hf.join htemplates fun v a w ha hw => ⟨v, ha, hw⟩
    have halike : f.Fieldwise (Alike r₀ r r') g :=
      hto.symm.join hg fun w a b ⟨v, ha, hvw⟩ hb => hvw.follows ha hb
    have hfields := captureFields_congr (halike.imp fun v w _ _ hvw =>
      h.captureWith_eq (c := r.captureComposite depth (m :: within))
        (b := r'.captureComposite depth (m :: within)) (fun hx hy hname => by
          obtain ⟨e, he⟩ := h.left.wellFormed.composite hx
          obtain ⟨e', he'⟩ := h.right.wellFormed.composite hy
          obtain ⟨hcalled, g, g', hg, hg', hgg'⟩ := h.template he
          exact ih hx hy hname e he e' he' hcalled g g' hg hg' hgg') hvw)
    rw [captureComposite_succ hx, captureComposite_succ hy, hfields, hcalled]

/-- Values that are alike look alike. -/
theorem snapshot_eq {v w : Value} (hvw : Alike r₀ r r' v w) : r.snapshot v = r'.snapshot w := by
  rw [h.left.snapshot_eq_of_depth (Nat.le_max_left r.models.size r'.models.size) hvw.denotes.1,
    h.right.snapshot_eq_of_depth (Nat.le_max_right r.models.size r'.models.size) hvw.denotes.2]
  exact h.captureWith_eq h.captureComposite_eq hvw

end Parallel

end Metamodel.Repository
