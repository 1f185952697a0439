import Metamodel.Declaration
import Metamodel.Path

/-!
# Metamodel.Proofs.Segments -- what can be read off the text of a path

A role has none of the characters that join a path, and neither have the digits of an index. So the
text of a path below another one says how it goes on there: with which member, with the element of
which index, or with a mark. Main statements: it goes on with one role and with one index only, and
the mark of a discriminator or of a length is below no member and no element.
-/

namespace Metamodel

namespace Path

/-- A character that may follow the name of a member or an index, which has none of them. -/
def separates (c : Char) : Bool :=
  c == '.' || c == '[' || c == '#'

/-- The second path is the first one, or goes on from there. -/
def Below (base path : String) : Prop :=
  ∃ rest : List Char, path.toList = base.toList ++ rest ∧ ∀ c ∈ rest.head?, separates c = true

variable {base middle path under name role role' : String} {i j : Nat}

/-! ## Joining -/

theorem join_assoc (a b c : String) : join a (join b c) = join (join a b) c := by
  by_cases ha : a = ""
  · simp [ha]
  by_cases hb : b = ""
  · simp [hb]
  by_cases hc : c = ""
  · simp [hc]
  simp [join, ha, hb, hc, memberSeparator, String.append_assoc]

/-- What comes before the name of a member. -/
def stem (under : String) : List Char :=
  if under = "" then [] else under.toList ++ ['.']

theorem toList_join (hname : name ≠ "") : (join under name).toList = stem under ++ name.toList := by
  by_cases hunder : under = ""
  · simp [join, stem, hunder]
  · simp [join, stem, hunder, hname, memberSeparator]

theorem join_ne_empty (hname : name ≠ "") : join under name ≠ "" := by
  intro h
  have hlist : (join under name).toList = [] := by rw [h]; rfl
  rw [toList_join hname, List.append_eq_nil_iff] at hlist
  exact hname (String.toList_eq_nil_iff.mp hlist.2)

theorem leaf_eq_join (hname : name ≠ "") (hmarker : name ≠ discriminatorMarker) :
    leaf under name = join under name := by
  by_cases hunder : under = ""
  · simp [hunder]
  · simp [leaf, join, hunder, hname, hmarker]

theorem toList_leaf_marker : (leaf under discriminatorMarker).toList = under.toList ++ ['#'] := by
  simp [leaf, discriminatorMarker]

/-- Below a path no leaf is the mark alone. -/
theorem leaf_ne_marker (hunder : under ≠ "") (name : String) :
    leaf under name ≠ discriminatorMarker := by
  intro h
  have hlist : (leaf under name).toList = ['#'] := by rw [h]; rfl
  by_cases hmarker : name = discriminatorMarker
  · rw [hmarker, toList_leaf_marker] at hlist
    exact hunder (by simpa using hlist)
  · have hdot : '.' ∈ (leaf under name).toList := by
      simp [leaf, hunder, hmarker, memberSeparator]
    rw [hlist] at hdot
    simp at hdot

/-- A leaf that is put under one path, and then under another one, lies below the two joined; so
does the mark of a discriminator. -/
theorem leaf_leaf (outer under name : String) :
    leaf outer (leaf under name) = leaf (join outer under) name := by
  by_cases hunder : under = ""
  · simp [hunder]
  by_cases houter : outer = ""
  · simp [houter]
  have hinner : leaf outer (leaf under name) = outer ++ memberSeparator ++ leaf under name := by
    rw [leaf, if_neg (by simp [houter, leaf_ne_marker hunder])]
  have hjoin : join outer under = outer ++ memberSeparator ++ under := by
    simp [join, houter, hunder]
  rw [hinner, hjoin]
  by_cases hmarker : name = discriminatorMarker <;>
    simp [leaf, hunder, houter, hmarker, String.append_assoc]

theorem toList_length : (length name).toList = name.toList ++ ['#'] := by
  simp [length, lengthSuffix]

theorem toList_element :
    (element name i).toList = name.toList ++ '[' :: (i.repr.toList ++ [']']) := by
  simp [element]

theorem element_ne_empty (name : String) (i : Nat) : element name i ≠ "" := by
  intro h
  have hlist : (element name i).toList = [] := by rw [h]; rfl
  simp [toList_element] at hlist

/-! ## Going on -/

namespace Below

theorem refl (path : String) : Below path path :=
  ⟨[], by simp, by simp⟩

theorem trans (h : Below base middle) (h' : Below middle path) : Below base path := by
  obtain ⟨rest, hmiddle, hhead⟩ := h
  obtain ⟨rest', hpath, hhead'⟩ := h'
  refine ⟨rest ++ rest', by rw [hpath, hmiddle, List.append_assoc], fun c hc => ?_⟩
  cases rest with
  | nil => exact hhead' c hc
  | cons a as => exact hhead c hc

theorem ne_empty (h : Below base path) (hbase : base ≠ "") : path ≠ "" := by
  rintro rfl
  obtain ⟨rest, hrest, -⟩ := h
  rw [eq_comm, String.toList_empty, List.append_eq_nil_iff] at hrest
  exact hbase (String.toList_eq_nil_iff.mp hrest.1)

end Below

theorem below_join (hunder : under ≠ "") (name : String) : Below under (join under name) := by
  by_cases hname : name = ""
  · rw [hname, join_empty_right]
    exact .refl under
  · refine ⟨'.' :: name.toList, ?_, by simp [separates]⟩
    rw [toList_join hname, stem, if_neg hunder, List.append_assoc, List.singleton_append]

theorem below_element (name : String) (i : Nat) : Below name (element name i) :=
  ⟨_, toList_element, by simp [separates]⟩

theorem below_length (name : String) : Below name (length name) :=
  ⟨_, toList_length, by simp [separates]⟩

theorem below_leaf_marker (under : String) : Below under (leaf under discriminatorMarker) :=
  ⟨_, toList_leaf_marker, by simp [separates]⟩

/-! ## Reading -/

theorem separates_of_continuesWith {c : Char} (h : Role.continuesWith c = true) :
    separates c = false := by
  have hmarks : ['.', '[', '#'].any Role.continuesWith = false := by decide +kernel
  rw [← Bool.not_eq_true]
  intro hc
  have hmem : c ∈ ['.', '[', '#'] := by simpa [separates, or_assoc] using hc
  exact List.any_eq_false.mp hmarks c hmem h

/-- A role is not empty, and has no character that joins a path. -/
theorem role_chars (h : Role.isValid role = true) :
    role ≠ "" ∧ ∀ c ∈ role.toList, separates c = false := by
  unfold Role.isValid at h
  split at h
  · simp at h
  · next c rest hrole =>
    rw [Bool.and_eq_true, List.all_eq_true] at h
    have hstart : Role.continuesWith c = true := by
      have hc := h.1
      simp only [Role.startsWith, Role.continuesWith, Bool.or_eq_true] at hc ⊢
      exact hc.imp_left Or.inl
    refine ⟨fun hempty => by simp [hempty] at hrole, fun a ha => separates_of_continuesWith ?_⟩
    rw [hrole, List.mem_cons] at ha
    rcases ha with rfl | ha
    · exact hstart
    · exact h.2 a ha

/-- What has no character of a sort ends where the first one of this sort comes. -/
theorem eq_of_append_eq {p : Char → Bool} {l l' t t' : List Char} (h : l ++ t = l' ++ t')
    (hl : ∀ c ∈ l, p c = false) (hl' : ∀ c ∈ l', p c = false) (ht : ∀ c ∈ t.head?, p c = true)
    (ht' : ∀ c ∈ t'.head?, p c = true) : l = l' := by
  have hread : ∀ l t : List Char, (∀ c ∈ l, p c = false) → (∀ c ∈ t.head?, p c = true) →
      (l ++ t).takeWhile (fun c => !p c) = l := by
    intro l t hl ht
    rw [List.takeWhile_append_of_pos (by simpa using hl)]
    cases t with
    | nil => simp
    | cons a as => simp [ht a rfl]
  rw [← hread l t hl ht, h, hread l' t' hl' ht']

/-- Under one path, a path goes on with one role only. -/
theorem role_unique (hrole : Role.isValid role = true) (hrole' : Role.isValid role' = true)
    (h : Below (join under role) path) (h' : Below (join under role') path) : role = role' := by
  obtain ⟨hne, hchars⟩ := role_chars hrole
  obtain ⟨hne', hchars'⟩ := role_chars hrole'
  obtain ⟨rest, hpath, hhead⟩ := h
  obtain ⟨rest', hpath', hhead'⟩ := h'
  rw [toList_join hne, List.append_assoc] at hpath
  rw [toList_join hne', List.append_assoc] at hpath'
  have hrest := List.append_cancel_left (hpath.symm.trans hpath')
  exact String.toList_injective (eq_of_append_eq hrest hchars hchars' hhead hhead')

/-- The mark of a discriminator is no path of a member, and none below. -/
theorem not_below_leaf_marker (hrole : Role.isValid role = true) :
    ¬ Below (join under role) (leaf under discriminatorMarker) := by
  rintro ⟨rest, hpath, -⟩
  obtain ⟨hne, hchars⟩ := role_chars hrole
  rw [toList_leaf_marker, toList_join hne] at hpath
  by_cases hunder : under = ""
  · -- The role would have to be the mark.
    have hmem : '#' ∈ role.toList := by
      cases hlist : role.toList with
      | nil => exact (hne (String.toList_eq_nil_iff.mp hlist)).elim
      | cons c cs =>
        rw [hlist] at hpath
        simp only [hunder, stem, if_true, String.toList_empty, List.nil_append,
          List.cons_append, List.cons.injEq] at hpath
        rw [hpath.1]
        exact List.mem_cons_self
    simpa [separates] using hchars '#' hmem
  · simp [stem, hunder] at hpath

/-- But for the mark, a leaf is joined as any other member is. -/
theorem leaf_join (hrole : Role.isValid role = true) (name : String) :
    leaf under (join role name) = join under (join role name) := by
  have hbelow : Below role (join role name) := below_join (role_chars hrole).1 name
  refine leaf_eq_join (hbelow.ne_empty (role_chars hrole).1) fun hmarker => ?_
  have hnot : ¬ Below (join "" role) (leaf "" discriminatorMarker) := not_below_leaf_marker hrole
  rw [join_empty_left, leaf_empty, ← hmarker] at hnot
  exact hnot hbelow

/-- In one collection, a path goes on with one index only. -/
theorem index_unique (h : Below (element name i) path) (h' : Below (element name j) path) :
    i = j := by
  obtain ⟨rest, hpath, -⟩ := h
  obtain ⟨rest', hpath', -⟩ := h'
  have hdigits : ∀ n : Nat, ∀ c ∈ n.repr.toList, (c == ']') = false := by
    intro n c hc
    rw [Nat.repr_eq_ofList_toDigits, String.toList_ofList] at hc
    have hdigit := Nat.isDigit_of_mem_toDigits (by decide) (by decide) hc
    cases heq : c == ']' with
    | false => rfl
    | true =>
      obtain rfl := eq_of_beq heq
      simp at hdigit
  rw [toList_element] at hpath hpath'
  have hrest : i.repr.toList ++ (']' :: rest) = j.repr.toList ++ (']' :: rest') := by
    simpa using hpath.symm.trans hpath'
  have hrepr := eq_of_append_eq hrest (hdigits i) (hdigits j) (by simp) (by simp)
  have hread := congrArg (fun l => Nat.ofDigitChars 10 l 0) hrepr
  simpa [Nat.repr_eq_ofList_toDigits] using hread

/-- The length of a collection is no path of an element, and none below. -/
theorem not_below_length : ¬ Below (element name i) (length name) := by
  rintro ⟨rest, hpath, -⟩
  rw [toList_length, toList_element] at hpath
  simp at hpath

end Path

end Metamodel
