import Metamodel.Step

/-!
# Metamodel.Collection -- collections and their dimensions

A collection has a shape of its own: the template of its elements, a capacity, a name, and an origin
that says whether its length is symbolic. Several dimensions are nested collections, of which only
the outermost carries the name, so that elements are called `name[i][j]`. Elements themselves are
made on first access, by `Metamodel.Instance`.
-/

namespace Metamodel

/-- The dimensions that a qualifier gives; without any it stands for one without bound. -/
def Qualifier.bounds (q : Qualifier) : List Bound :=
  if q.dimensions = [] then [.unbounded] else q.dimensions

/-- How many of the indices 1, 2, … are occupied in a row. -/
def occupiedRun (elements : Table Nat Value) : Nat :=
  ((List.range elements.size).takeWhile fun i => elements.contains (i + 1)).length

namespace Repository

variable {κ : Type} {ts : TypeSystem κ}

/-! ## Look-up -/

/-- The shape of a collection. -/
def shape (r : Repository ts) (id : ObjectId) : Except Error Shape :=
  match r.object? id with
  | some (.collection m _) =>
    match (r.model? m).bind Model.shape? with
    | some s => .ok s
    | none => .error (.content (r.label id))
  | some (.composite ..) => .error (.content (r.label id))
  | none => .error (.unknownObject id)

/-- Where the length of a collection comes from. -/
def origin (r : Repository ts) (id : ObjectId) : Except Error Origin :=
  (r.shape id).map (·.origin)

/-- The capacity of a collection, if it is bounded. -/
def capacity (r : Repository ts) (id : ObjectId) : Except Error (Option Nat) :=
  (r.shape id).map (·.capacity)

/-- The length of a collection: symbolic in a template, else the run of occupied indices. -/
def length (r : Repository ts) (id : ObjectId) : Except Error Length :=
  (r.shape id).map fun s => match s.origin with
    | .template => .symbolic (Path.length s.name)
    | _ => .count (occupiedRun ((r.elements? id).getD Table.empty))

/-- Accepts what a collection can hold: a template or another collection. -/
def checkContent (r : Repository ts) (id : ObjectId) : Except Error Unit :=
  match r.object? id with
  | some (.collection ..) => .ok ()
  | some (.composite ..) =>
    match r.assertTemplateKind id with
    | .ok _ => .ok ()
    | .error _ => .error (.content (r.label id))
  | none => .error (.content (r.label id))

/-- The capacity that a bound gives. A constant has to be a positive integer. -/
def resolveBound (r : Repository ts) : Bound → Except Error (Option Nat)
  | .unbounded => .ok none
  | .size n => if n = 0 then .error (.capacity .zero) else .ok (some n)
  | .constant id =>
    match r.modelOf? id with
    | none => .error (.capacity (.object id))
    | some m =>
      match (r.entriesOf m).findSome? Entry.scalar? with
      | some (.int n) =>
        if 0 < n.toInt then .ok (some n.toInt.toNat)
        else .error (.capacity (.constant (r.label id) (some (Scalar.int n).text)))
      | value => .error (.capacity (.constant (r.label id) (value.map Scalar.text)))

/-- The capacities that a qualifier gives, within the limit on their number. -/
def capacities (r : Repository ts) (q : Qualifier) : Except Error (List (Option Nat)) := do
  let capacities ← q.bounds.mapM r.resolveBound
  if ts.limits.dimensions < capacities.length then
    .error (.capacity (.dimensions capacities.length ts.limits.dimensions))
  else .ok capacities

/-! ## Construction -/

/-- Adds an empty collection with a shape of its own. -/
def addCollection (r : Repository ts) (element : ObjectId) (capacity : Option Nat) (name : String)
    (origin : Origin) : Repository ts :=
  let shape : Shape := ⟨name, element, capacity, origin, r.nextObject⟩
  (r.addModel (.shape shape)).addObject (.collection r.nextModel Table.empty)

end Repository

namespace Step

variable {κ : Type} {ts : TypeSystem κ}

/-- The origin of a collection that is built, and not copied. -/
def builtOrigin (owned : Bool) : Origin :=
  if owned then .template else .free

/-- Makes an empty collection. -/
def buildCollection (element : ObjectId) (capacity : Option Nat) (name : String)
    (origin : Origin) : Step ts ObjectId := do
  let id ← ask (·.nextObject)
  edit (·.addCollection element capacity name origin)
  pure id

/-- Makes a collection of one dimension. A collection is `owned` if it goes into a template. -/
def newCollection (content : ObjectId) (bound : Bound) (name : String) (owned : Bool) :
    Step ts ObjectId := do
  query (·.checkContent content)
  let capacity ← query (·.resolveBound bound)
  buildCollection content capacity name (builtOrigin owned)

/-- Copies the shape of a collection under a path, without its elements. -/
def copyCollection (source : ObjectId) (under : String) (owned : Bool) : Step ts ObjectId := do
  let s ← query (·.shape source)
  buildCollection s.element s.capacity (Path.join under s.name)
    (if owned then .template else .derived source)

/-- Makes one collection for each capacity, the innermost first. -/
def nestCollections (element : ObjectId) (owned : Bool) :
    List (Option Nat) → String → Step ts ObjectId
  | [], _ => pure element
  | capacity :: inner, name => do
    -- The inner ones have no name of their own.
    let content ← nestCollections element owned inner ""
    buildCollection content capacity name (builtOrigin owned)

/-- Makes the nested collections that a qualifier describes. -/
def newCollections (element : ObjectId) (q : Qualifier) (name : String) (owned : Bool) :
    Step ts ObjectId := do
  query (·.checkContent element)
  let capacities ← query (·.capacities q)
  nestCollections element owned capacities name

end Step

end Metamodel
