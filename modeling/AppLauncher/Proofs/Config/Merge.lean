import AppLauncher.Config.Layer
import AppLauncher.Proofs.Document.Entries
import AppLauncher.Proofs.Text.Characters
import Mathlib.Data.List.TakeWhile
import Mathlib.Tactic.Tauto

/-!
# Documents with plain keys laid one over the other

A key that is a plain identifier in lower case is a path of one name, so such documents are merged by setting the
entries of all of them one after the other (`merge_eq_putAll`).  What a key holds in the end comes of the values
under that key alone, in their order (`lookup_putAll`): the last one, where none of them is a table, and the merged
entries of all of them, where all are tables.
-/

namespace AppLauncher.Config.Layer

open AppLauncher.Document

/-! ### Plain keys -/

/-- A character of a plain identifier in lower case. -/
def isPlainChar (c : Char) : Bool :=
  ('a' ≤ c && c ≤ 'z') || ('0' ≤ c && c ≤ '9') || c == '_' || c == '-'

/-- A plain identifier in lower case. -/
def IsPlainKey (k : String) : Prop := k.toList ≠ [] ∧ k.toList.all isPlainChar = true

private theorem isLower_of_isPlainChar {c : Char} (h : isPlainChar c = true) : Text.IsLower c := by
  simp only [isPlainChar, Bool.or_eq_true, Bool.and_eq_true, decide_eq_true_eq, beq_iff_eq, Text.char_le_iff] at h
  rw [Text.IsLower, Text.char_lt_iff, Text.char_le_iff, Text.char_le_iff]
  simp only [Char.reduceToNat] at h ⊢
  rcases h with ((h | h) | rfl) | rfl
  · omega
  · omega
  · decide
  · decide

private theorem isNameChar_of_isPlainChar {c : Char} (h : isPlainChar c = true) : isNameChar c = true := by
  simp only [isPlainChar, Bool.or_eq_true] at h
  simp only [isNameChar, Bool.or_eq_true]
  tauto

namespace IsPlainKey

variable {k : String}

theorem lowerString_eq (h : IsPlainKey k) : Text.lowerString k = k :=
  Text.lowerString_eq_self fun c hc => isLower_of_isPlainChar (List.all_eq_true.1 h.2 c hc)

theorem path?_eq (h : IsPlainKey k) : path? k.toList = some (k, []) := by
  have hname : name? k.toList = some (k, []) := by
    have hall : ∀ c ∈ k.toList, isNameChar c = true := fun c hc =>
      isNameChar_of_isPlainChar (List.all_eq_true.1 h.2 c hc)
    have htake : k.toList.takeWhile isNameChar = k.toList := List.takeWhile_eq_self_iff.2 hall
    have hdrop : k.toList.dropWhile isNameChar = [] := List.dropWhile_eq_nil_iff.2 hall
    have hempty : k.toList.isEmpty = false := by simpa using h.1
    simp [name?, htake, hdrop, hempty, h.lowerString_eq]
  rw [path?, hname]
  rfl

theorem setKeyPath_eq (h : IsPlainKey k) (value root : Node) : setKeyPath k value root = root.put k value := by
  rw [setKeyPath, h.path?_eq]
  rfl

end IsPlainKey

/-! ### Setting entries -/

namespace Node

/-- A table that has no key twice. -/
def IsMap : Node → Prop
  | table _ es => (es.map Prod.fst).Nodup
  | _ => False

/-- What a key holds after a node was set that it held nothing or something before. -/
def laid (old : Option Node) : Node → Node
  | table _ es => putAll (old.getD emptyTable) es
  | n => n

variable {t n : Node} {k key : String}

theorem put_eq_setKey (t : Node) (key : String) (n : Node) :
    t.put key n = t.setKey key (laid (t.asTable.entries.lookup key) n) := by
  cases n <;> simp only [put, laid]

theorem isMap_emptyTable : emptyTable.IsMap := List.nodup_nil

theorem IsMap.setKey (h : t.IsMap) (key : String) (n : Node) : (t.setKey key n).IsMap := by
  cases t with
  | table o es => exact nodup_keys_setEntry key n h
  | scalar o v => exact h.elim
  | list o items => exact h.elim

theorem IsMap.lookup_setKey (h : t.IsMap) (key k : String) (n : Node) :
    (t.setKey key n).entries.lookup k = if k = key then some n else t.entries.lookup k := by
  cases t with
  | table o es => exact lookup_setEntry key k n es
  | scalar o v => exact h.elim
  | list o items => exact h.elim

theorem IsMap.put (h : t.IsMap) (key : String) (n : Node) : (t.put key n).IsMap := by
  rw [put_eq_setKey]
  exact h.setKey _ _

theorem IsMap.lookup_put (h : t.IsMap) (key k : String) (n : Node) :
    (t.put key n).entries.lookup k =
      if k = key then some (laid (t.entries.lookup k) n) else t.entries.lookup k := by
  rw [put_eq_setKey, h.lookup_setKey]
  cases t with
  | table o es =>
    by_cases hk : k = key
    · subst hk
      rfl
    · rw [if_neg hk, if_neg hk]
  | scalar o v => exact h.elim
  | list o items => exact h.elim

theorem putAll_append (t : Node) (es es' : List (String × Node)) :
    t.putAll (es ++ es') = (t.putAll es).putAll es' := by
  induction es generalizing t with
  | nil => simp [putAll]
  | cons e es ih =>
    obtain ⟨k, v⟩ := e
    rw [List.cons_append, putAll, putAll, ih]

theorem IsMap.putAll (h : t.IsMap) (es : List (String × Node)) : (t.putAll es).IsMap := by
  induction es generalizing t with
  | nil => simpa [Node.putAll] using h
  | cons e es ih =>
    obtain ⟨k, v⟩ := e
    rw [Node.putAll]
    exact ih (h.put _ v)

/-- What a key holds after entries with plain keys were set: its values were laid over what it held, one after the
other. -/
theorem IsMap.lookup_putAll (h : t.IsMap) {es : List (String × Node)} (hplain : ∀ e ∈ es, IsPlainKey e.1)
    (k : String) : (t.putAll es).entries.lookup k =
      (valuesOf k es).foldl (fun old n => some (laid old n)) (t.entries.lookup k) := by
  induction es generalizing t with
  | nil => simp [Node.putAll]
  | cons e es ih =>
    obtain ⟨key, v⟩ := e
    have hkey : Text.lowerString key = key := (hplain (key, v) (by simp)).lowerString_eq
    rw [Node.putAll, hkey, ih (h.put key v) fun e he => hplain e (by simp [he]), h.lookup_put]
    by_cases hk : k = key
    · subst hk
      rw [if_pos rfl, valuesOf_cons_self, List.foldl_cons]
    · rw [if_neg hk, valuesOf_cons_of_ne (Ne.symm hk)]

/-- Entries with plain keys that are all new are added in their order, each as if it stood alone. -/
theorem putAll_of_new {o : Option String} {es : List (String × Node)} (hplain : ∀ e ∈ es, IsPlainKey e.1)
    (hkeys : (es.map Prod.fst).Nodup) {before : List (String × Node)}
    (hnew : ∀ e ∈ es, e.1 ∉ before.map Prod.fst) :
    (table o before).putAll es = table o (before ++ es.map fun e => (e.1, laid none e.2)) := by
  induction es generalizing before with
  | nil => simp [Node.putAll]
  | cons e es ih =>
    obtain ⟨key, v⟩ := e
    rw [List.map_cons, List.nodup_cons] at hkeys
    have hkey := hnew (key, v) (by simp)
    have hput : (table o before).put key v = table o (before ++ [(key, laid none v)]) := by
      rw [put_eq_setKey, ← setEntry_of_notMem hkey, show (table o before).asTable.entries = before from rfl,
        lookup_eq_none_of_notMem hkey]
      rfl
    rw [Node.putAll, (hplain (key, v) (by simp)).lowerString_eq, hput,
      ih (fun e he => hplain e (by simp [he])) hkeys.2, List.map_cons, List.append_assoc, List.singleton_append]
    intro e he hmem
    rw [List.map_append, List.mem_append] at hmem
    rcases hmem with hmem | hmem
    · exact hnew e (by simp [he]) hmem
    · -- the key that was just added stands in none of the entries after it
      have hsame : e.1 = key := by simpa using hmem
      exact hkeys.1 (List.mem_map.2 ⟨e, he, hsame⟩)

/-- Of values that are no tables the last one stays. -/
theorem foldl_laid_of_flat {ns : List Node} (h : ∀ n ∈ ns, ∀ o es, n ≠ table o es) (old : Option Node) :
    ns.foldl (fun old n => some (laid old n)) old = ns.getLast?.or old := by
  induction ns generalizing old with
  | nil => rfl
  | cons n ns ih =>
    have hlaid : laid old n = n := by
      cases n with
      | table o es => exact absurd rfl (h _ (by simp) o es)
      | scalar o v => rfl
      | list o items => rfl
    rw [List.foldl_cons, ih (fun n hn => h n (by simp [hn])), hlaid, List.getLast?_cons]
    cases ns.getLast? <;> rfl

/-- Tables are merged into one with the entries of all of them. -/
theorem foldl_laid_of_tables {ns : List Node} (h : ∀ n ∈ ns, ∃ o es, n = table o es) (hne : ns ≠ []) :
    ns.foldl (fun old n => some (laid old n)) none = some (emptyTable.putAll (ns.flatMap entries)) := by
  -- once there is a table, each further one adds its entries to it
  have hfrom : ∀ (ns : List Node) (t : Node), (∀ n ∈ ns, ∃ o es, n = table o es) →
      ns.foldl (fun old n => some (laid old n)) (some t) = some (t.putAll (ns.flatMap entries)) := by
    intro ns
    induction ns with
    | nil => simp [putAll]
    | cons n ns ih =>
      intro t hns
      obtain ⟨o, es, rfl⟩ := hns n (by simp)
      rw [List.foldl_cons, ih _ fun n hn => hns n (by simp [hn]), List.flatMap_cons, putAll_append]
      rfl
  cases ns with
  | nil => exact absurd rfl hne
  | cons n ns =>
    obtain ⟨o, es, rfl⟩ := h n (by simp)
    rw [List.foldl_cons, hfrom ns _ fun n hn => h n (by simp [hn]), List.flatMap_cons, putAll_append]
    rfl

end Node

/-! ### Merging -/

/-- The entries of a table of a document. -/
def rows : Value → List (String × Value)
  | .table es => es
  | _ => []

theorem ofEntries_eq_map (origin : String) (es : List (String × Value)) :
    ofEntries origin es = es.map fun e => (e.1, ofValue origin e.2) := by
  induction es with
  | nil => simp [ofEntries]
  | cons e es ih =>
    obtain ⟨k, v⟩ := e
    rw [ofEntries, ih, List.map_cons]

theorem ofItems_eq_map (origin : String) (items : List Value) :
    ofItems origin items = items.map (ofValue origin) := by
  induction items with
  | nil => simp [ofItems]
  | cons v items ih => rw [ofItems, ih, List.map_cons]

theorem overlay_eq_putAll {es : List (String × Node)} (h : ∀ e ∈ es, IsPlainKey e.1) (root : Node) :
    overlay root es = root.putAll es := by
  induction es generalizing root with
  | nil => simp [overlay, Node.putAll]
  | cons e es ih =>
    obtain ⟨k, v⟩ := e
    have hk := h (k, v) (by simp)
    rw [Node.putAll, hk.lowerString_eq, ← ih (fun e he => h e (by simp [he])), ← hk.setKeyPath_eq]
    rfl

/-- Documents with plain keys are merged entry by entry. -/
theorem merge_eq_putAll {docs : List (String × Value)} (h : ∀ l ∈ docs, ∀ e ∈ rows l.2, IsPlainKey e.1) :
    merge docs = Node.emptyTable.putAll (docs.flatMap fun l => ofEntries l.1 (rows l.2)) := by
  rw [merge]
  generalize Node.emptyTable = root
  induction docs generalizing root with
  | nil => simp [Node.putAll]
  | cons l docs ih =>
    obtain ⟨origin, v⟩ := l
    have hkeys : ∀ e ∈ ofEntries origin (rows v), IsPlainKey e.1 := by
      intro e he
      rw [ofEntries_eq_map] at he
      obtain ⟨e', he', rfl⟩ := List.mem_map.1 he
      exact h (origin, v) (by simp) e' he'
    rw [List.foldl_cons, List.flatMap_cons, Node.putAll_append, ← overlay_eq_putAll hkeys,
      ih (fun l hl => h l (by simp [hl]))]
    cases v <;> rfl

end AppLauncher.Config.Layer
