/-!
# Metamodel.Table -- association tables in order of arrival

A table lists its keys in the order in which they first arrived; writing to a key that is present
moves nothing. Fields, registries and materialized elements are tables. Main statements: one
equation each for the look-up and for the keys after `insert` and `erase`.
-/

namespace Metamodel

/-- Keys with one value each, in order of arrival. -/
structure Table (κ ν : Type) where
  entries : List (κ × ν)
deriving DecidableEq, Repr

namespace Table

variable {κ ν : Type} [DecidableEq κ]

/-- The table without keys. -/
def empty : Table κ ν := ⟨[]⟩

instance : Inhabited (Table κ ν) := ⟨empty⟩

/-- The keys, in order of arrival. -/
def keys (t : Table κ ν) : List κ :=
  t.entries.map (·.1)

/-- The values, in the order of their keys. -/
def values (t : Table κ ν) : List ν :=
  t.entries.map (·.2)

/-- The number of keys. -/
def size (t : Table κ ν) : Nat :=
  t.entries.length

/-- The value of a key in a list of entries. -/
def find? (k : κ) : List (κ × ν) → Option ν
  | [] => none
  | e :: rest => if e.1 = k then some e.2 else find? k rest

/-- The value of a key. -/
def get? (t : Table κ ν) (k : κ) : Option ν :=
  find? k t.entries

/-- Whether the key is present. -/
def contains (t : Table κ ν) (k : κ) : Bool :=
  (t.get? k).isSome

/-- The entries with `k` bound to `v`: in its old place, or at the end. -/
def put (k : κ) (v : ν) : List (κ × ν) → List (κ × ν)
  | [] => [(k, v)]
  | e :: rest => if e.1 = k then (k, v) :: rest else e :: put k v rest

/-- Binds a key, keeping its place if it is present. -/
def insert (t : Table κ ν) (k : κ) (v : ν) : Table κ ν :=
  ⟨put k v t.entries⟩

/-- Removes a key. -/
def erase (t : Table κ ν) (k : κ) : Table κ ν :=
  ⟨t.entries.filter fun e => decide (e.1 ≠ k)⟩

/-! ## Look-up -/

@[simp] theorem get?_empty (k : κ) : (empty : Table κ ν).get? k = none := rfl

theorem find?_put (k l : κ) (v : ν) (es : List (κ × ν)) :
    find? l (put k v es) = if k = l then some v else find? l es := by
  induction es with
  | nil => simp [put, find?]
  | cons e rest ih =>
    simp only [put]
    by_cases he : e.1 = k
    · by_cases hk : k = l <;> simp [find?, he, hk]
    · by_cases hl : e.1 = l
      · have hkl : k ≠ l := fun h => he (hl.trans h.symm)
        rw [if_neg he, if_neg hkl]
        simp [find?, hl]
      · rw [if_neg he]
        simp [find?, hl, ih]

theorem get?_insert (t : Table κ ν) (k l : κ) (v : ν) :
    (t.insert k v).get? l = if k = l then some v else t.get? l :=
  find?_put k l v t.entries

theorem find?_filter_ne (k l : κ) (es : List (κ × ν)) :
    find? l (es.filter fun e => decide (e.1 ≠ k)) = if k = l then none else find? l es := by
  induction es with
  | nil => simp [find?]
  | cons e rest ih =>
    by_cases he : e.1 = k
    · rw [List.filter_cons_of_neg (by simp [he]), ih]
      by_cases hk : k = l
      · simp [hk]
      · simp [find?, he, hk]
    · rw [List.filter_cons_of_pos (by simp [he])]
      by_cases hl : e.1 = l
      · have hkl : k ≠ l := fun h => he (hl.trans h.symm)
        simp [find?, hl, hkl]
      · simp only [find?, hl, if_false]
        exact ih

theorem get?_erase (t : Table κ ν) (k l : κ) :
    (t.erase k).get? l = if k = l then none else t.get? l :=
  find?_filter_ne k l t.entries

theorem find?_eq_none_iff (k : κ) (es : List (κ × ν)) :
    find? k es = none ↔ k ∉ es.map (·.1) := by
  induction es with
  | nil => simp [find?]
  | cons e rest ih =>
    by_cases he : e.1 = k
    · simp [find?, he]
    · simp only [find?, he, if_false, ih, List.map_cons, List.mem_cons, not_or]
      exact ⟨fun h => ⟨fun hk => he hk.symm, h⟩, fun h => h.2⟩

/-- A key is absent exactly when the look-up finds nothing. -/
theorem get?_eq_none_iff (t : Table κ ν) (k : κ) : t.get? k = none ↔ k ∉ t.keys :=
  find?_eq_none_iff k t.entries

/-! ## Keys -/

omit [DecidableEq κ] in
@[simp] theorem keys_empty : (empty : Table κ ν).keys = [] := rfl

theorem map_fst_put (k : κ) (v : ν) (es : List (κ × ν)) :
    (put k v es).map (·.1) = if k ∈ es.map (·.1) then es.map (·.1) else es.map (·.1) ++ [k] := by
  induction es with
  | nil => simp [put]
  | cons e rest ih =>
    by_cases he : e.1 = k
    · simp [put, he]
    · have hk : k ≠ e.1 := fun h => he h.symm
      simp only [put, he, if_false, List.map_cons, ih, List.mem_cons, hk, false_or]
      split <;> simp

/-- A new key goes to the end, a key that is present stays where it is. -/
theorem keys_insert (t : Table κ ν) (k : κ) (v : ν) :
    (t.insert k v).keys = if k ∈ t.keys then t.keys else t.keys ++ [k] :=
  map_fst_put k v t.entries

/-- Removing a key keeps the other keys in their order. -/
theorem keys_erase (t : Table κ ν) (k : κ) :
    (t.erase k).keys = t.keys.filter fun l => decide (l ≠ k) := by
  simp [keys, erase, List.filter_map, Function.comp_def]

theorem nodup_keys_insert {t : Table κ ν} (h : t.keys.Nodup) (k : κ) (v : ν) :
    (t.insert k v).keys.Nodup := by
  rw [keys_insert]
  split
  · exact h
  · next hk =>
    rw [List.nodup_append]
    refine ⟨h, by simp, ?_⟩
    intro a ha b hb
    rcases List.mem_singleton.1 hb with rfl
    intro hab
    exact hk (hab ▸ ha)

theorem nodup_keys_erase {t : Table κ ν} (h : t.keys.Nodup) (k : κ) : (t.erase k).keys.Nodup := by
  rw [keys_erase]
  exact h.filter _

end Table

end Metamodel
