import AppLauncher.Document.Value

/-!
# Entries by their keys

Entries are looked up by their keys and set one by one; all values under a key, in their order, are what documents
with several entries of one key are compared by.
-/

namespace AppLauncher.Document

variable {α β : Type} {k key : String} {v : α} {es : List (String × α)}

theorem lookup_cons_of_ne (h : k ≠ key) : ((key, v) :: es).lookup k = es.lookup k := by
  have : (k == key) = false := by simpa using h
  simp [List.lookup_cons, this]

theorem lookup_eq_none_of_notMem (h : k ∉ es.map Prod.fst) : es.lookup k = none := by
  rw [List.lookup_eq_none_iff]
  intro e he
  have : e.1 ≠ k := fun hk => h (List.mem_map.2 ⟨e, he, hk⟩)
  simpa using Ne.symm this

/-- Where no key stands twice, an entry is what its key holds. -/
theorem lookup_eq_some_iff_mem (h : (es.map Prod.fst).Nodup) : es.lookup k = some v ↔ (k, v) ∈ es := by
  induction es with
  | nil => simp
  | cons e rest ih =>
    obtain ⟨k', v'⟩ := e
    rw [List.map_cons, List.nodup_cons] at h
    by_cases hk : k = k'
    · subst hk
      have hno : (k, v) ∉ rest := fun hmem => h.1 (List.mem_map.2 ⟨_, hmem, rfl⟩)
      simp [hno, eq_comm]
    · rw [lookup_cons_of_ne hk, ih h.2]
      simp [hk]

/-- The order of the entries makes no difference to what a key holds. -/
theorem lookup_eq_of_perm {es' : List (String × α)} (hperm : es.Perm es') (h : (es.map Prod.fst).Nodup) (k : String) :
    es.lookup k = es'.lookup k := by
  have h' : (es'.map Prod.fst).Nodup := (hperm.map Prod.fst).nodup_iff.1 h
  ext v
  rw [lookup_eq_some_iff_mem h, lookup_eq_some_iff_mem h', hperm.mem_iff]

/-- Setting a key changes what that key holds and nothing else. -/
theorem lookup_setEntry (key k : String) (v : α) (es : List (String × α)) :
    (setEntry key v es).lookup k = if k = key then some v else es.lookup k := by
  induction es with
  | nil =>
    by_cases h : k = key
    · simp [setEntry, h]
    · rw [setEntry, lookup_cons_of_ne h, if_neg h]
  | cons e rest ih =>
    obtain ⟨k', v'⟩ := e
    rw [setEntry]
    by_cases hk : k' = key
    · subst hk
      rw [if_pos rfl]
      by_cases h : k = k'
      · simp [h]
      · rw [if_neg h, lookup_cons_of_ne h, lookup_cons_of_ne h]
    · rw [if_neg hk]
      by_cases h : k = k'
      · subst h
        simp [hk]
      · rw [lookup_cons_of_ne h, lookup_cons_of_ne h, ih]

/-- An entry after a key was set is that of the key or one that was there. -/
theorem mem_setEntry {e : String × α} (h : e ∈ setEntry key v es) : e = (key, v) ∨ e ∈ es := by
  induction es with
  | nil => simpa [setEntry] using h
  | cons e' rest ih =>
    obtain ⟨k', v'⟩ := e'
    rw [setEntry] at h
    split at h
    · rename_i hk
      subst hk
      exact (List.mem_cons.1 h).imp_right (List.mem_cons_of_mem _)
    · rcases List.mem_cons.1 h with rfl | h
      · exact Or.inr List.mem_cons_self
      · exact (ih h).imp_right (List.mem_cons_of_mem _)

/-- A key that is new stands at the end. -/
theorem setEntry_of_notMem (h : key ∉ es.map Prod.fst) (v : α) : setEntry key v es = es ++ [(key, v)] := by
  induction es with
  | nil => rfl
  | cons e rest ih =>
    obtain ⟨k', v'⟩ := e
    simp only [List.map_cons, List.mem_cons, not_or] at h
    rw [setEntry, if_neg (Ne.symm h.1), ih h.2, List.cons_append]

theorem keys_setEntry (key : String) (v : α) (es : List (String × α)) :
    (setEntry key v es).map Prod.fst =
      if key ∈ es.map Prod.fst then es.map Prod.fst else es.map Prod.fst ++ [key] := by
  induction es with
  | nil => simp [setEntry]
  | cons e rest ih =>
    obtain ⟨k', v'⟩ := e
    rw [setEntry]
    by_cases hk : k' = key
    · simp [hk]
    · have hne : key ≠ k' := Ne.symm hk
      rw [if_neg hk, List.map_cons, ih]
      by_cases hmem : key ∈ rest.map Prod.fst
      · rw [if_pos hmem, if_pos (by simp only [List.map_cons]; exact List.mem_cons_of_mem _ hmem), List.map_cons]
      · rw [if_neg hmem, if_neg (by simp only [List.map_cons, List.mem_cons, hne, hmem, or_self, not_false_iff])]
        rfl

/-- Distinct keys stay distinct when one is set. -/
theorem nodup_keys_setEntry (key : String) (v : α) (h : (es.map Prod.fst).Nodup) :
    ((setEntry key v es).map Prod.fst).Nodup := by
  rw [keys_setEntry]
  split
  · exact h
  · rename_i hmem
    rw [List.nodup_append]
    refine ⟨h, by simp, ?_⟩
    intro a ha b hb hab
    rw [List.mem_singleton] at hb
    exact hmem (hb ▸ hab ▸ ha)

/-- Entries that are left out by their keys are the only ones that are not found any more. -/
theorem lookup_filter (p : String → Bool) (k : String) (es : List (String × α)) :
    (es.filter fun e => p e.1).lookup k = if p k then es.lookup k else none := by
  induction es with
  | nil => simp
  | cons e rest ih =>
    obtain ⟨k', v'⟩ := e
    by_cases hk : k = k'
    · subst hk
      by_cases hp : p k = true
      · simp [hp]
      · simpa [hp] using ih
    · rw [lookup_cons_of_ne hk]
      by_cases hp : p k' = true
      · rw [List.filter_cons, if_pos hp, lookup_cons_of_ne hk, ih]
      · rw [List.filter_cons, if_neg hp, ih]

theorem setEntry_of_lookup (h : es.lookup key = some v) : setEntry key v es = es := by
  induction es with
  | nil => cases h
  | cons e rest ih =>
    obtain ⟨k', v'⟩ := e
    by_cases hk : k' = key
    · subst hk
      obtain rfl : v' = v := by simpa using h
      simp [setEntry]
    · rw [lookup_cons_of_ne (Ne.symm hk)] at h
      rw [setEntry, if_neg hk, ih h]

theorem setEntry_setEntry (key : String) (v w : α) (es : List (String × α)) :
    setEntry key w (setEntry key v es) = setEntry key w es := by
  induction es with
  | nil => simp [setEntry]
  | cons e rest ih =>
    obtain ⟨k', v'⟩ := e
    by_cases hk : k' = key
    · simp [setEntry, hk]
    · simp [setEntry, hk, ih]

/-! ### All values under a key -/

/-- The values of all entries with a key, in order. -/
def valuesOf (k : String) (es : List (String × α)) : List α := es.filterMap fun e => if e.1 = k then some e.2 else none

@[simp] theorem valuesOf_nil : valuesOf k ([] : List (String × α)) = [] := rfl

theorem valuesOf_cons_self : valuesOf k ((k, v) :: es) = v :: valuesOf k es := by
  simp [valuesOf]

theorem valuesOf_cons_of_ne (h : key ≠ k) : valuesOf k ((key, v) :: es) = valuesOf k es := by
  simp [valuesOf, h]

theorem valuesOf_flatMap {γ : Type} (k : String) (f : γ → List (String × α)) (xs : List γ) :
    valuesOf k (xs.flatMap f) = xs.flatMap fun x => valuesOf k (f x) := by
  induction xs with
  | nil => rfl
  | cons x xs ih =>
    rw [List.flatMap_cons, List.flatMap_cons, ← ih, valuesOf, List.filterMap_append]
    rfl

theorem valuesOf_map (k : String) (f : α → β) (es : List (String × α)) :
    valuesOf k (es.map fun e => (e.1, f e.2)) = (valuesOf k es).map f := by
  induction es with
  | nil => rfl
  | cons e rest ih =>
    obtain ⟨k', v'⟩ := e
    by_cases hk : k' = k
    · subst hk
      rw [List.map_cons, valuesOf_cons_self, valuesOf_cons_self, List.map_cons, ih]
    · rw [List.map_cons, valuesOf_cons_of_ne hk, valuesOf_cons_of_ne hk, ih]

end AppLauncher.Document
