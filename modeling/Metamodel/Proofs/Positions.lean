import Metamodel.Proofs.Rooting

/-!
# Metamodel.Proofs.Positions -- a path is found at one place only

A walk goes from a composite through fields, by role, and through elements of collections, by index.
At its end it may come to a leaf, which is a path, or to a collection whose length is one. Main
statement: in every state reached, two walks from one composite that come to different places come
to different paths.
-/

namespace Metamodel

variable {κ : Type} {ts : TypeSystem κ}

/-- One step of a walk: into a field of a composite, or to an element of a collection. -/
inductive Stride where
  | field (role : String)
  | element (index : Nat)
deriving DecidableEq, Repr

namespace Repository

/-- What a value holds at the end of one step, if that has been made. -/
def stride? (r : Repository ts) : Value → Stride → Option Value
  | .composite x, .field role => r.field? x role
  | .collection c, .element index => (r.elements? c).bind (·.get? index)
  | _, _ => none

/-- What is found at a position, which is the walk that leads there. -/
def walk? (r : Repository ts) : Value → List Stride → Option Value
  | v, [] => some v
  | v, stride :: rest => (r.stride? v stride).bind (r.walk? · rest)

/-- The value is a leaf and this is its path, or it is a collection and this stands for its length.
-/
inductive Carries (r : Repository ts) : Value → String → Prop where
  | accessor (path : String) : Carries r (.accessor path) path
  | length {c : ObjectId} {path : String} (h : r.length c = .ok (.symbolic path)) :
      Carries r (.collection c) path

variable {r : Repository ts} {v w : Value} {a : String} {position : List Stride}

@[simp] theorem walk?_nil : r.walk? v [] = some v := rfl

theorem walk?_cons {stride : Stride} :
    r.walk? v (stride :: position) = some w ↔
      ∃ u, r.stride? v stride = some u ∧ r.walk? u position = some w := by
  rw [walk?, Option.bind_eq_some_iff]

theorem walk?_of_leaf (hv : v.object? = none) :
    r.walk? v position = some w ↔ position = [] ∧ w = v := by
  cases position with
  | nil => simp [eq_comm]
  | cons stride rest => cases v <;> simp_all [walk?, stride?, Value.object?]

theorem stride?_eq_some_iff {stride : Stride} :
    r.stride? v stride = some w ↔
      (∃ x role, v = .composite x ∧ stride = .field role ∧ r.field? x role = some w) ∨
        ∃ c index, v = .collection c ∧ stride = .element index ∧
          (r.elements? c).bind (·.get? index) = some w := by
  cases v <;> cases stride <;> simp [stride?]

/-- The length of a collection that belongs to a template is named for the collection. -/
theorem shape_of_length {c : ObjectId} (h : r.length c = .ok (.symbolic a)) :
    ∃ s, r.shape c = .ok s ∧ a = Path.length s.name := by
  cases hs : r.shape c with
  | error e => simp [length, hs, Except.map] at h
  | ok s =>
    refine ⟨s, rfl, ?_⟩
    cases ho : s.origin <;> simp_all [length, Except.map]

end Repository

namespace Idl

open Metamodel.Path (Below)
open Repository (walk?_cons stride?_eq_some_iff)

variable {limits : Limits} {r : Repository (system limits)} {v w w' : Value} {a role path : String}
  {p q : List Stride}

/-- A field carries the mark of a union, or what goes on from the path of the role. -/
theorem Seated.carried (hv : Seated r path role v) (hwalk : r.walk? v p = some w)
    (hcarries : r.Carries w a)
    (hbelow : Path.join path role ≠ "" → r.Rooted (Path.join path role) v →
      Below (Path.join path role) a) :
    role = discriminatorRole ∧ a = Path.leaf path discriminatorMarker ∨
      Role.isValid role = true ∧ Below (Path.join path role) a := by
  cases hv with
  | scalar scalar =>
    obtain ⟨-, rfl⟩ := (Repository.walk?_of_leaf rfl).mp hwalk
    cases hcarries
  | marker hrole =>
    obtain ⟨-, rfl⟩ := (Repository.walk?_of_leaf rfl).mp hwalk
    cases hcarries
    exact Or.inl ⟨hrole, rfl⟩
  | rooted hrole hv =>
    exact Or.inr ⟨hrole, hbelow (Path.join_ne_empty (Path.role_chars hrole).1) hv⟩

namespace Addressed

variable (h : Addressed r)
include h

/-- What is carried below a value that has a path of its own goes on from this path. -/
theorem below (hpath : path ≠ "") (hv : r.Rooted path v) (hwalk : r.walk? v p = some w)
    (hcarries : r.Carries w a) : Below path a := by
  induction p generalizing v path with
  | nil =>
    obtain rfl := Option.some.inj hwalk
    cases hcarries with
    | accessor =>
      cases hv with
      | accessor name => exact Path.below_join hpath name
    | length hlength =>
      cases hv with
      | collection name hs hname =>
        obtain ⟨t, ht, rfl⟩ := Repository.shape_of_length hlength
        obtain rfl := Except.ok.inj (hs.symm.trans ht)
        rw [hname]
        exact (Path.below_join hpath name).trans (Path.below_length _)
  | cons stride rest ih =>
    obtain ⟨u, hstride, hrest⟩ := walk?_cons.mp hwalk
    rcases stride?_eq_some_iff.mp hstride with ⟨x, role, rfl, -, hu⟩ | ⟨c, index, rfl, -, hu⟩
    · cases hv with
      | composite name ho hname =>
        have hx : Below path (r.registeredName x) := hname ▸ Path.below_join hpath name
        have hne := hx.ne_empty hpath
        refine hx.trans ?_
        rcases (h.field hu).carried hrest hcarries fun hrole hu => ih hrole hu hrest with
          ⟨-, rfl⟩ | ⟨-, hbelow⟩
        · exact Path.below_leaf_marker _
        · exact (Path.below_join hne role).trans hbelow
    · cases hv with
      | @collection _ s name hs hname =>
        have hc : Below path s.name := hname ▸ Path.below_join hpath name
        refine (hc.trans (Path.below_element s.name index)).trans ?_
        exact ih (Path.element_ne_empty s.name index) (h.element hs hu) hrest

theorem field_carried {x : ObjectId} (hv : r.field? x role = some v) (hwalk : r.walk? v p = some w)
    (hcarries : r.Carries w a) :
    role = discriminatorRole ∧ a = Path.leaf (r.registeredName x) discriminatorMarker ∨
      Role.isValid role = true ∧ Below (Path.join (r.registeredName x) role) a :=
  (h.field hv).carried hwalk hcarries fun hne hrooted => h.below hne hrooted hwalk hcarries

/-- The fields of a composite carry different paths. -/
theorem role_unique {x : ObjectId} {role' : String} {v' : Value}
    (hv : r.field? x role = some v) (hv' : r.field? x role' = some v')
    (hp : r.walk? v p = some w) (hq : r.walk? v' q = some w') (ha : r.Carries w a)
    (hb : r.Carries w' a) : role = role' := by
  rcases h.field_carried hv hp ha with ⟨hrole, rfl⟩ | ⟨hrole, hbelow⟩
  · rcases h.field_carried hv' hq hb with ⟨hrole', -⟩ | ⟨hrole', hbelow'⟩
    · rw [hrole, hrole']
    · exact (Path.not_below_leaf_marker hrole' hbelow').elim
  · rcases h.field_carried hv' hq hb with ⟨-, rfl⟩ | ⟨hrole', hbelow'⟩
    · exact (Path.not_below_leaf_marker hrole hbelow).elim
    · exact Path.role_unique hrole hrole' hbelow hbelow'

theorem element_carried {c : ObjectId} {s : Shape} {index : Nat} (hs : r.shape c = .ok s)
    (hv : (r.elements? c).bind (·.get? index) = some v) (hwalk : r.walk? v p = some w)
    (hcarries : r.Carries w a) : Below (Path.element s.name index) a :=
  h.below (Path.element_ne_empty s.name index) (h.element hs hv) hwalk hcarries

/-- A path that a value carries itself is not carried by anything that it holds. -/
theorem eq_nil_of_carries (ha : r.Carries v a) (hq : r.walk? v q = some w)
    (hb : r.Carries w a) : q = [] := by
  cases q with
  | nil => rfl
  | cons stride rest =>
    obtain ⟨u, hstride, hrest⟩ := walk?_cons.mp hq
    rcases stride?_eq_some_iff.mp hstride with ⟨x, role, rfl, -, -⟩ | ⟨c, index, rfl, -, hu⟩
    · cases ha
    · cases ha with
      | length hlength =>
        obtain ⟨s, hs, rfl⟩ := Repository.shape_of_length hlength
        exact (Path.not_below_length (h.element_carried hs hu hrest hb)).elim

/-- By induction on the first position: where the two go on differently, the paths do as well. -/
theorem position_unique (hp : r.walk? v p = some w) (hq : r.walk? v q = some w')
    (ha : r.Carries w a) (hb : r.Carries w' a) : p = q := by
  induction p generalizing v q with
  | nil =>
    obtain rfl := Option.some.inj hp
    exact (h.eq_nil_of_carries ha hq hb).symm
  | cons stride rest ih =>
    cases q with
    | nil =>
      obtain rfl := Option.some.inj hq
      exact h.eq_nil_of_carries hb hp ha
    | cons stride' rest' =>
      obtain ⟨u, hstride, hrest⟩ := walk?_cons.mp hp
      obtain ⟨u', hstride', hrest'⟩ := walk?_cons.mp hq
      suffices hsame : stride = stride' by
        subst hsame
        obtain rfl := Option.some.inj (hstride.symm.trans hstride')
        rw [ih hrest hrest']
      rcases stride?_eq_some_iff.mp hstride with ⟨x, role, rfl, rfl, hu⟩ | ⟨c, index, rfl, rfl, hu⟩
      · rcases stride?_eq_some_iff.mp hstride' with ⟨y, role', hxy, rfl, hu'⟩ | ⟨d, _, hcd, -, -⟩
        · obtain rfl := Value.composite.inj hxy
          rw [h.role_unique hu hu' hrest hrest' ha hb]
        · simp at hcd
      · rcases stride?_eq_some_iff.mp hstride' with ⟨y, _, hxy, -, -⟩ | ⟨d, index', hcd, rfl, hu'⟩
        · simp at hxy
        · obtain rfl := Value.collection.inj hcd
          obtain ⟨es, hes, -⟩ := Option.bind_eq_some_iff.mp hu
          obtain ⟨m, ho⟩ := Repository.elements?_eq_some_iff.mp hes
          obtain ⟨s, hs⟩ := h.wellFormed.shape_of_collection ho
          rw [Path.index_unique (h.element_carried hs hu hrest ha)
            (h.element_carried hs hu' hrest' hb)]

end Addressed

/-! ## Runs -/

/-- Whatever is declared, edited, made and accessed: where two walks from one composite come to
different positions, and each to a leaf or to a collection with a symbolic length, the paths there
are different. -/
theorem paths_differ_of_reached {b : String} {x : ObjectId}
    (h : Reached Operation.perform (fun _ operation => operation.Shapes) (initial limits) r)
    (hp : r.walk? (.composite x) p = some v) (hq : r.walk? (.composite x) q = some w)
    (ha : r.Carries v a) (hb : r.Carries w b) (hne : p ≠ q) : a ≠ b := by
  rintro rfl
  exact hne ((addressed_of_reached h).position_unique hp hq ha hb)

/-- An instance has an array of arrays and a union. An element of the inner array, the length of
that array, and the discriminator of the union are three positions. -/
theorem paths_differ_nested :
    let long := Atom.long.template
    let rename := Operation.newTypedef
    let r := Operation.run (initial ⟨4, 4⟩)
      [rename "Row" long [sequence (.size 2)], rename "Grid" ⟨21⟩ [sequence (.size 3)],
        .newUnion "U" long [.member ⟨"b", long, [], []⟩],
        .newStruct "S" [.member ⟨"g", ⟨22⟩, [], []⟩, .member ⟨"u", ⟨23⟩, [], []⟩],
        .repository (.newInstance ⟨24⟩ "i" true), .repository (.element ⟨27⟩ 1),
        .repository (.element ⟨30⟩ 2)]
    r.walk? (.composite ⟨29⟩) [.field "g", .element 1, .element 2] =
        some (.accessor "i.g[1][2]") ∧
      r.walk? (.composite ⟨29⟩) [.field "g", .element 1] = some (.collection ⟨30⟩) ∧
      r.length ⟨30⟩ = .ok (.symbolic "i.g[1]#") ∧
      r.walk? (.composite ⟨29⟩) [.field "u", .field discriminatorRole] =
        some (.accessor "i.u#") ∧
      "i.g[1][2]" ≠ "i.g[1]#" ∧ "i.g[1][2]" ≠ "i.u#" ∧ "i.g[1]#" ≠ "i.u#" := by
  intro long rename r
  have hleaf : r.walk? (.composite ⟨29⟩) [.field "g", .element 1, .element 2] =
      some (.accessor "i.g[1][2]") := by decide +kernel
  have hinner : r.walk? (.composite ⟨29⟩) [.field "g", .element 1] = some (.collection ⟨30⟩) := by
    decide +kernel
  have hlength : r.length ⟨30⟩ = .ok (.symbolic "i.g[1]#") := by decide +kernel
  have hmark : r.walk? (.composite ⟨29⟩) [.field "u", .field discriminatorRole] =
      some (.accessor "i.u#") := by decide +kernel
  have h : Reached Operation.perform (fun _ operation => operation.Shapes) (initial ⟨4, 4⟩) r := by
    simp only [r, Operation.run, List.foldl_cons, List.foldl_nil]
    exact .next (.next (.next (.next (.next (.next (.next .start trivial) trivial) trivial) trivial)
      trivial) trivial) trivial
  clear_value r
  exact ⟨hleaf, hinner, hlength, hmark,
    paths_differ_of_reached h hleaf hinner (.accessor _) (.length hlength) (by decide),
    paths_differ_of_reached h hleaf hmark (.accessor _) (.accessor _) (by decide),
    paths_differ_of_reached h hinner hmark (.length hlength) (.accessor _) (by decide)⟩

end Idl

end Metamodel
