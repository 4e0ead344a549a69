import AppLauncher.Proofs.Document.Entries
import AppLauncher.Proofs.Document.Toml.Lines
import Mathlib.Data.List.Basic
import Mathlib.Tactic.SplitIfs

/-!
# No key stands twice

A text in which a table has a key twice is no document: what is read from a text has distinct keys in every table, at
every depth (`distinct_of_read?`).  Tables under construction are followed line by line; each change to them either
replaces the item of a key or adds a key that is new.
-/

namespace AppLauncher.Document

/-! ### Values inside values -/

/-- A value that is another one or stands at some depth in it. -/
inductive Value.Inside (w : Value) : Value → Prop
  | here : Inside w w
  | item {v : Value} {items : List Value} (hv : v ∈ items) (h : Inside w v) : Inside w (.list items)
  | entry {e : String × Value} {es : List (String × Value)} (he : e ∈ es) (h : Inside w e.2) : Inside w (.table es)

/-- No table inside the value has a key twice. -/
def Value.Distinct (v : Value) : Prop := ∀ es, Value.Inside (.table es) v → (es.map Prod.fst).Nodup

namespace Value

/-- A value without parts. -/
def isFlat : Value → Bool
  | list _ => false
  | table _ => false
  | _ => true

theorem distinct_of_isFlat {v : Value} (h : v.isFlat = true) : v.Distinct := by
  intro es hes
  cases hes with
  | here => cases h
  | item => cases h
  | entry => cases h

theorem distinct_list {items : List Value} (h : ∀ v ∈ items, v.Distinct) : (list items).Distinct := by
  intro es hes
  cases hes with
  | item hv hin => exact h _ hv es hin

theorem distinct_table {es : List (String × Value)} (hkeys : (es.map Prod.fst).Nodup) (h : ∀ e ∈ es, e.2.Distinct) :
    (table es).Distinct := by
  intro es' hes'
  cases hes' with
  | here => exact hkeys
  | entry he hin => exact h _ he es' hin

theorem Distinct.entry {es : List (String × Value)} (h : (table es).Distinct) {e : String × Value} (he : e ∈ es) :
    e.2.Distinct := fun es' hes' => h es' (.entry he hes')

end Value

namespace Toml

/-- What a step that can fail preserves is preserved by a fold of it. -/
private theorem foldlM_preserves {α β : Type} {P : β → Prop} {K : α → Prop} {step : β → α → Option β}
    (hstep : ∀ b a b', K a → P b → step b a = some b' → P b') {as : List α} (has : ∀ a ∈ as, K a) {b b' : β}
    (hb : P b) (h : as.foldlM step b = some b') : P b' := by
  induction as generalizing b with
  | nil =>
    cases h
    exact hb
  | cons a as ih =>
    obtain ⟨b₁, hfirst, h⟩ := Option.bind_eq_some_iff.1 h
    exact ih (fun a' ha' => has a' (List.mem_cons_of_mem a ha')) (hstep b a b₁ (has a List.mem_cons_self) hb hfirst) h

/-! ### Tables under construction -/

/-- An unfinished item in which no key stands twice. -/
inductive Item.Tidy : Item → Prop
  | value {v : Value} (h : v.Distinct) : Tidy (.value v)
  | table {o : Origin} {es : Entries} (keys : (es.map Prod.fst).Nodup) (items : ∀ e ∈ es, Tidy e.2) :
    Tidy (.table o es)
  | tables {is : List Item} (items : ∀ i ∈ is, Tidy i) : Tidy (.tables is)

/-- Entries in which no key stands twice, at any depth. -/
structure IsTidy (es : Entries) : Prop where
  keys : (es.map Prod.fst).Nodup
  items : ∀ e ∈ es, e.2.Tidy

theorem isTidy_nil : IsTidy [] := ⟨List.nodup_nil, by simp⟩

theorem Item.Tidy.isTidy {o : Origin} {es : Entries} (h : (Item.table o es).Tidy) : IsTidy es := by
  cases h with
  | table keys items => exact ⟨keys, items⟩

theorem Item.Tidy.isTidy_head {o : Origin} {es : Entries} {is : List Item}
    (h : (Item.tables (.table o es :: is)).Tidy) : IsTidy es := by
  cases h with
  | tables items => exact (items _ List.mem_cons_self).isTidy

namespace IsTidy

variable {es : Entries} {key : String} {i : Item}

theorem item (h : IsTidy es) (o : Origin) : (Item.table o es).Tidy := .table h.keys h.items

theorem lookup (h : IsTidy es) (hi : es.lookup key = some i) : i.Tidy :=
  h.items _ ((lookup_eq_some_iff_mem h.keys).1 hi)

theorem setEntry (h : IsTidy es) (key : String) (hi : i.Tidy) : IsTidy (setEntry key i es) where
  keys := nodup_keys_setEntry key i h.keys
  items e he := by
    rcases mem_setEntry he with rfl | he
    · exact hi
    · exact h.items e he

/-- A key that is new may be put at the end. -/
theorem append (h : IsTidy es) (hnew : es.lookup key = none) (hi : i.Tidy) : IsTidy (es ++ [(key, i)]) := by
  have hfresh : key ∉ es.map Prod.fst := by
    intro hmem
    obtain ⟨e, he, rfl⟩ := List.mem_map.1 hmem
    have := (lookup_eq_some_iff_mem h.keys (k := e.1) (v := e.2)).2 he
    rw [hnew] at this
    cases this
  rw [← setEntry_of_notMem hfresh]
  exact h.setEntry key hi

theorem filter (h : IsTidy es) (keep : String × Item → Bool) : IsTidy (es.filter keep) where
  keys := h.keys.sublist (List.filter_sublist.map Prod.fst)
  items e he := h.items e (List.mem_of_mem_filter he)

/-- What is changed at the end of a path stays tidy if the change keeps tables tidy. -/
theorem descend {dotted : Bool} {change : Origin → Entries → Option Entries}
    (hchange : ∀ o es es', IsTidy es → change o es = some es' → IsTidy es') (path : List String) :
    ∀ {o : Origin} {es es' : Entries}, IsTidy es → descend dotted change path o es = some es' → IsTidy es' := by
  induction path with
  | nil => exact fun h he => hchange _ _ _ h (by rwa [Toml.descend] at he)
  | cons key path ih =>
    intro o es es' h he
    rw [Toml.descend] at he
    split at he
    · obtain ⟨inner, hinner, he⟩ := Option.bind_eq_some_iff.1 he
      cases he
      exact h.setEntry key ((ih isTidy_nil hinner).item _)
    · cases he
    · rename_i origin inner others hlookup
      obtain ⟨inner', hinner, he⟩ := Option.bind_eq_some_iff.1 he
      cases he
      have htables := h.lookup hlookup
      refine h.setEntry key (.tables fun i hi => ?_)
      rcases List.mem_cons.1 hi with rfl | hi
      · exact (ih htables.isTidy_head hinner).item _
      · cases htables with
        | tables items => exact items i (List.mem_cons_of_mem _ hi)
    · cases he
    · rename_i origin inner hlookup
      split at he
      · cases he
      · obtain ⟨inner', hinner, he⟩ := Option.bind_eq_some_iff.1 he
        cases he
        exact h.setEntry key ((ih (h.lookup hlookup).isTidy hinner).item _)

theorem putDotted {path : List String} {v : Value} {es' : Entries} (h : IsTidy es) (hv : v.Distinct)
    (he : putDotted path key v es = some es') : IsTidy es' := by
  refine h.descend (fun o inner inner' hinner hchange => ?_) path he
  split at hchange
  · cases hchange
  · split at hchange
    · cases hchange
    · rename_i hnew
      cases hchange
      exact hinner.append (Option.not_isSome_iff_eq_none.1 hnew) (.value hv)

end IsTidy

/-! ### Finished tables -/

private theorem finishItems_eq (is : List Item) (done : List Value) :
    finishItems is done = (is.map Item.finish).reverse ++ done := by
  induction is generalizing done with
  | nil => simp [finishItems]
  | cons i is ih => simp [finishItems, ih]

/-- Tidy items are finished to values in which no key stands twice. -/
theorem Item.Tidy.distinct_finish {i : Item} (h : i.Tidy) : i.finish.Distinct := by
  induction h with
  | value h => rwa [Item.finish]
  | table keys _ ih =>
    rw [Item.finish, finishEntries_eq_map]
    refine Value.distinct_table (by rwa [List.map_map]) fun e he => ?_
    obtain ⟨e', he', rfl⟩ := List.mem_map.1 he
    exact ih e' he'
  | tables _ ih =>
    rw [Item.finish, finishItems_eq]
    refine Value.distinct_list fun v hv => ?_
    obtain ⟨i, hi, rfl⟩ : ∃ i ∈ _, Item.finish i = v := by simpa using hv
    exact ih i hi

theorem IsTidy.distinct_finish {es : Entries} (h : IsTidy es) : (Value.table (finishEntries es)).Distinct := by
  have := (h.item .header).distinct_finish
  rwa [Item.finish] at this

/-! ### Drafts -/

/-- A draft in which no key stands twice, neither in what is finished nor in the table being filled. -/
structure Draft.IsTidy (d : Draft) : Prop where
  root : Toml.IsTidy d.root
  current : ∀ s, d.current = some s → Toml.IsTidy s.entries

namespace Draft.IsTidy

variable {d d' : Draft} {path parents : List String} {key : String}

theorem empty : Draft.empty.IsTidy := ⟨isTidy_nil, by simp [Draft.empty]⟩

theorem close {es : Entries} (h : d.IsTidy) (he : d.close = some es) : Toml.IsTidy es := by
  rw [Draft.close] at he
  split at he
  · cases he
    exact h.root
  · rename_i s hs
    have hs := h.current s hs
    refine h.root.descend (fun o inner inner' hinner hchange => ?_) s.parents he
    split at hchange
    · split at hchange
      · rename_i elements hlookup
        cases hchange
        refine hinner.setEntry s.key (.tables fun i hi => ?_)
        rcases List.mem_cons.1 hi with rfl | hi
        · exact hs.item .header
        · cases hinner.lookup hlookup with
          | tables items => exact items i hi
      · cases hchange
    · split at hchange
      · rename_i hnew
        cases hchange
        exact hinner.append hnew (hs.item .header)
      · cases hchange

theorem put {v : Value} (h : d.IsTidy) (hv : v.Distinct) (hput : d.put path key v = some d') : d'.IsTidy := by
  rw [Draft.put] at hput
  split at hput
  · rename_i hnone
    obtain ⟨root, hroot, rfl⟩ := Option.map_eq_some_iff.1 hput
    exact ⟨h.root.putDotted hv hroot, by simp [hnone]⟩
  · rename_i s hs
    obtain ⟨entries, hentries, rfl⟩ := Option.map_eq_some_iff.1 hput
    refine ⟨h.root, fun s' hs' => ?_⟩
    cases hs'
    exact (h.current s hs).putDotted hv hentries

theorem openTable (h : d.IsTidy) (hopen : d.openTable parents key = some d') : d'.IsTidy := by
  obtain ⟨closed, hclosed, hopen⟩ := Option.bind_eq_some_iff.1 hopen
  obtain ⟨root, hroot, hopen⟩ := Option.bind_eq_some_iff.1 hopen
  obtain ⟨inner, hinner, hopen⟩ := Option.bind_eq_some_iff.1 hopen
  have hroot : Toml.IsTidy root := (h.close hclosed).descend (fun _ _ _ hin he => by cases he; exact hin) parents hroot
  split at hopen
  · cases hopen
    exact ⟨hroot, by rintro s ⟨⟩; exact isTidy_nil⟩
  · rename_i inner' hlookup
    obtain ⟨root', hroot', hopen⟩ := Option.bind_eq_some_iff.1 hopen
    cases hopen
    refine ⟨hroot.descend (fun _ _ _ hin he => by cases he; exact hin.filter _) parents hroot', ?_⟩
    rintro s ⟨⟩
    have hfound : Toml.IsTidy inner := by
      refine foldlM_preserves (P := Toml.IsTidy) (K := fun _ => True) ?_ (by simp) hroot hinner
      intro es k es' _ hes hstep
      split at hstep
      · rename_i hlookup
        cases hstep
        exact (hes.lookup hlookup).isTidy
      · rename_i hlookup
        cases hstep
        exact (hes.lookup hlookup).isTidy_head
      · cases hstep
    exact (hfound.lookup hlookup).isTidy
  · cases hopen

theorem openRepeated (h : d.IsTidy) (hopen : d.openRepeated parents key = some d') : d'.IsTidy := by
  obtain ⟨closed, hclosed, hopen⟩ := Option.bind_eq_some_iff.1 hopen
  obtain ⟨root, hroot, hopen⟩ := Option.bind_eq_some_iff.1 hopen
  cases hopen
  refine ⟨(h.close hclosed).descend (fun o inner inner' hinner hchange => ?_) parents hroot, ?_⟩
  · split at hchange
    · rename_i hnew
      cases hchange
      exact hinner.append hnew (.tables (by simp))
    · cases hchange
      exact hinner
    · cases hchange
  · rintro s ⟨⟩
    exact isTidy_nil

end Draft.IsTidy

/-! ### Values -/

private theorem isFlat_based? {base : Nat} {digit? : Char → Option Nat} {cs : List Char} {p : Value × List Char}
    (h : based? base digit? cs = some p) : p.1.isFlat = true := by
  obtain ⟨⟨ds, rest⟩, -, h⟩ := Option.bind_eq_some_iff.1 h
  dsimp only at h
  split at h
  · cases h
    rfl
  · cases h

private theorem isFlat_integer? {cs : List Char} {p : Value × List Char} (h : integer? cs = some p) :
    p.1.isFlat = true := by
  unfold integer? at h
  split at h
  · exact isFlat_based? h
  · exact isFlat_based? h
  · exact isFlat_based? h
  · obtain ⟨⟨ds, rest⟩, -, h⟩ := Option.bind_eq_some_iff.1 h
    dsimp only at h
    split_ifs at h <;> cases h <;> rfl

private theorem isFlat_double? {cs : List Char} {p : Value × List Char} (h : double? cs = some p) :
    p.1.isFlat = true := by
  obtain ⟨⟨ds, rest⟩, -, h⟩ := Option.bind_eq_some_iff.1 h
  dsimp only at h
  -- whatever follows the digits, the last step is the same
  split at h
  · obtain ⟨⟨part, rest⟩, -, h⟩ := Option.bind_eq_some_iff.1 h
    dsimp only at h
    split at h
    all_goals
      obtain ⟨⟨part, power, rest⟩, -, h⟩ := Option.bind_eq_some_iff.1 h
      dsimp only at h
      split_ifs at h
      cases h
      rfl
  · obtain ⟨⟨part, power, rest⟩, -, h⟩ := Option.bind_eq_some_iff.1 h
    dsimp only at h
    split_ifs at h
    cases h
    rfl

private theorem isFlat_namedDouble? {cs : List Char} {p : Value × List Char} (h : namedDouble? cs = some p) :
    p.1.isFlat = true := by
  unfold namedDouble? at h
  dsimp only at h
  split at h <;> cases h <;> rfl

private theorem isFlat_moment? {cs : List Char} {p : Value × List Char} (h : moment? cs = some p) :
    p.1.isFlat = true := by
  unfold moment? at h
  split at h
  · split at h <;> cases h <;> rfl
  · obtain ⟨⟨t, rest⟩, -, rfl⟩ := Option.map_eq_some_iff.1 h
    rfl

private theorem isFlat_scalar? {cs : List Char} {p : Value × List Char} (h : scalar? cs = some p) :
    p.1.isFlat = true := by
  unfold scalar? at h
  split at h
  · cases h
    rfl
  · cases h
    rfl
  · split at h
    · rename_i hfound
      cases h
      exact isFlat_moment? hfound
    · split at h
      · rename_i hfound
        cases h
        exact isFlat_double? hfound
      · split at h
        · rename_i hfound
          cases h
          exact isFlat_namedDouble? hfound
        · exact isFlat_integer? h

/-- What a reader of values finds has distinct keys. -/
def Reads (item : List Char → Option (Value × List Char)) : Prop :=
  ∀ cs v rest, item cs = some (v, rest) → v.Distinct

private theorem Reads.items? {item : List Char → Option (Value × List Char)} (h : Reads item) (n : Nat) :
    ∀ {cs done vs rest}, (∀ v ∈ done, v.Distinct) → items? item n cs done = some (vs, rest) → ∀ v ∈ vs, v.Distinct := by
  induction n with
  | zero => intro cs done vs rest _ hitems; cases hitems
  | succ n ih =>
    intro cs done vs rest hdone hitems
    rw [Toml.items?] at hitems
    split at hitems
    · cases hitems
      simpa using hdone
    · obtain ⟨⟨v, rest'⟩, hv, hitems⟩ := Option.bind_eq_some_iff.1 hitems
      have hdone' : ∀ w ∈ v :: done, w.Distinct := by
        rintro w (_ | ⟨_, hw⟩)
        · exact h _ _ _ hv
        · exact hdone w hw
      dsimp only at hitems
      split at hitems
      · exact ih hdone' hitems
      · cases hitems
        exact fun w hw => hdone' w (List.mem_reverse.1 hw)
      · cases hitems

private theorem Reads.pairs? {item : List Char → Option (Value × List Char)} (h : Reads item) (n : Nat) :
    ∀ {cs done ps rest}, (∀ p ∈ done, p.2.Distinct) → pairs? item n cs done = some (ps, rest) →
      ∀ p ∈ ps, p.2.Distinct := by
  induction n with
  | zero => intro cs done ps rest _ hpairs; cases hpairs
  | succ n ih =>
    intro cs done ps rest hdone hpairs
    obtain ⟨⟨key, rest₁⟩, -, hpairs⟩ := Option.bind_eq_some_iff.1 hpairs
    obtain ⟨rest₂, -, hpairs⟩ := Option.bind_eq_some_iff.1 hpairs
    obtain ⟨⟨v, rest₃⟩, hv, hpairs⟩ := Option.bind_eq_some_iff.1 hpairs
    have hdone' : ∀ p ∈ (key, v) :: done, p.2.Distinct := by
      rintro p (_ | ⟨_, hp⟩)
      · exact h _ _ _ hv
      · exact hdone p hp
    dsimp only at hpairs
    split at hpairs
    · exact ih hdone' hpairs
    · cases hpairs
      exact fun p hp => hdone' p (List.mem_reverse.1 hp)
    · cases hpairs

private theorem distinct_inlineTable? {ps : List (List String × Value)} (h : ∀ p ∈ ps, p.2.Distinct) {v : Value}
    (hv : inlineTable? ps = some v) : v.Distinct := by
  obtain ⟨entries, hentries, hv⟩ := Option.bind_eq_some_iff.1 hv
  cases hv
  refine (foldlM_preserves (P := IsTidy) ?_ h isTidy_nil hentries).distinct_finish
  intro es p es' hp hes hput
  obtain ⟨⟨path, last⟩, -, hput⟩ := Option.bind_eq_some_iff.1 hput
  exact hes.putDotted hp hput

/-- Values are read with distinct keys, however deep they are. -/
theorem reads_value? (depth : Nat) : Reads (value? depth) := by
  induction depth with
  | zero => intro cs v rest h; cases h
  | succ depth ih =>
    intro cs v rest h
    unfold value? at h
    split at h
    · split at h
      · cases h
      · obtain ⟨⟨vs, rest'⟩, hvs, h⟩ := Option.bind_eq_some_iff.1 h
        cases h
        exact Value.distinct_list (ih.items? _ (by simp) hvs)
    · split at h
      · cases h
      · split at h
        · cases h
          exact Value.distinct_table List.nodup_nil (by simp)
        · obtain ⟨⟨ps, rest'⟩, hps, h⟩ := Option.bind_eq_some_iff.1 h
          obtain ⟨t, ht, h⟩ := Option.bind_eq_some_iff.1 h
          cases h
          exact distinct_inlineTable? (ih.pairs? _ (by simp) hps) ht
    · obtain ⟨⟨s, rest'⟩, -, heq⟩ := Option.map_eq_some_iff.1 h
      cases heq
      exact Value.distinct_of_isFlat rfl
    · obtain ⟨⟨s, rest'⟩, -, heq⟩ := Option.map_eq_some_iff.1 h
      cases heq
      exact Value.distinct_of_isFlat rfl
    · exact Value.distinct_of_isFlat (isFlat_scalar? h)

/-! ### Texts -/

namespace Draft.IsTidy

variable {d d' : Draft} {cs rest : List Char}

theorem keyLine? (h : d.IsTidy) (hline : keyLine? d cs = some (d', rest)) : d'.IsTidy := by
  obtain ⟨⟨key, rest₁⟩, -, hline⟩ := Option.bind_eq_some_iff.1 hline
  obtain ⟨rest₂, -, hline⟩ := Option.bind_eq_some_iff.1 hline
  obtain ⟨⟨v, rest₃⟩, hv, hline⟩ := Option.bind_eq_some_iff.1 hline
  obtain ⟨rest₄, -, hline⟩ := Option.bind_eq_some_iff.1 hline
  obtain ⟨⟨path, last⟩, -, hline⟩ := Option.bind_eq_some_iff.1 hline
  obtain ⟨d'', hput, hline⟩ := Option.bind_eq_some_iff.1 hline
  cases hline
  exact h.put (reads_value? _ _ _ _ hv) hput

theorem headerLine? (h : d.IsTidy) (hline : headerLine? d cs = some (d', rest)) : d'.IsTidy := by
  unfold Toml.headerLine? at hline
  split at hline
  · obtain ⟨⟨key, rest₁⟩, -, hline⟩ := Option.bind_eq_some_iff.1 hline
    obtain ⟨rest₂, -, hline⟩ := Option.bind_eq_some_iff.1 hline
    obtain ⟨rest₃, -, hline⟩ := Option.bind_eq_some_iff.1 hline
    obtain ⟨rest₄, -, hline⟩ := Option.bind_eq_some_iff.1 hline
    obtain ⟨⟨parents, last⟩, -, hline⟩ := Option.bind_eq_some_iff.1 hline
    obtain ⟨d'', hopen, hline⟩ := Option.bind_eq_some_iff.1 hline
    cases hline
    exact h.openRepeated hopen
  · obtain ⟨⟨key, rest₁⟩, -, hline⟩ := Option.bind_eq_some_iff.1 hline
    obtain ⟨rest₂, -, hline⟩ := Option.bind_eq_some_iff.1 hline
    obtain ⟨rest₃, -, hline⟩ := Option.bind_eq_some_iff.1 hline
    obtain ⟨⟨parents, last⟩, -, hline⟩ := Option.bind_eq_some_iff.1 hline
    obtain ⟨d'', hopen, hline⟩ := Option.bind_eq_some_iff.1 hline
    cases hline
    exact h.openTable hopen
  · cases hline

theorem lines? (n : Nat) : ∀ {d cs}, d.IsTidy → lines? n d cs = some d' → d'.IsTidy := by
  induction n with
  | zero =>
    intro d cs h hlines
    rw [Toml.lines?] at hlines
    split at hlines
    · cases hlines
      exact h
    · cases hlines
  | succ n ih =>
    intro d cs h hlines
    rw [Toml.lines?] at hlines
    split at hlines
    · cases hlines
      exact h
    · obtain ⟨⟨d'', rest⟩, hline, hlines⟩ := Option.bind_eq_some_iff.1 hlines
      exact ih (h.headerLine? hline) hlines
    · obtain ⟨⟨d'', rest⟩, hline, hlines⟩ := Option.bind_eq_some_iff.1 hlines
      exact ih (h.keyLine? hline) hlines

end Draft.IsTidy

/-- A text is read as a table, and no key stands twice in it or in any table inside it. -/
theorem distinct_of_read? {cs : List Char} {v : Value} (h : read? cs = some v) :
    (∃ es, v = .table es) ∧ v.Distinct := by
  obtain ⟨d, hd, h⟩ := Option.bind_eq_some_iff.1 h
  obtain ⟨es, hes, rfl⟩ := Option.map_eq_some_iff.1 h
  exact ⟨⟨_, rfl⟩, ((Draft.IsTidy.empty.lines? _ hd).close hes).distinct_finish⟩

end Toml

end AppLauncher.Document
