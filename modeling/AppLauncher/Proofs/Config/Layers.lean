import AppLauncher.Config.Load
import AppLauncher.Proofs.Config.Layout
import AppLauncher.Proofs.Config.Merge
import AppLauncher.Proofs.Document.Toml.Lines

/-!
# The last layer wins, field by field

Of documents that are laid one over the other, each field is read from the last one that has a value for it, and a
field without any value keeps its default (`read_merge_eq_ok_iff`).  So layers load like the single document that
holds the last values (`fromFiles_fieldwise`), and what a later layer does not mention it does not disturb.
-/

namespace AppLauncher.Config.Layer

open AppLauncher.Document AppLauncher.Schema

/-! ### What documents give -/

/-- The entries that a document has for a section. -/
def sectionRows (s : Section) (doc : Value) : List (String × Value) := (valuesOf s.name (rows doc)).flatMap rows

/-- The values that a document has for a field; one at most, unless a key stands in it twice. -/
def given (s : Section) (f : Schema.Field s.Settings) (doc : Value) : List Value :=
  valuesOf f.name (sectionRows s doc)

/-- The value of a field from the last of some documents that has one. -/
def last? (docs : List (String × Value)) (s : Section) (f : Schema.Field s.Settings) : Option Value :=
  (docs.flatMap fun l => given s f l.2).getLast?

/-- A document whose keys are plain, whose sections are tables and whose fields are none. -/
structure IsPlain (doc : Value) : Prop where
  keys : ∀ e ∈ rows doc, IsPlainKey e.1
  sections : ∀ s : Section, ∀ v ∈ valuesOf s.name (rows doc), ∃ es, v = .table es
  sectionKeys : ∀ s : Section, ∀ e ∈ sectionRows s doc, IsPlainKey e.1
  fields : ∀ s : Section, ∀ f ∈ s.fields, ∀ v ∈ given s f doc, ∀ es, v ≠ .table es

variable {docs : List (String × Value)} {s : Section}

/-- The nodes that documents have for a section, one document after the other. -/
private def sectionNodes (docs : List (String × Value)) (s : Section) : List (String × Node) :=
  docs.flatMap fun l => ofEntries l.1 (sectionRows s l.2)

private theorem entries_ofValue (origin : String) (v : Value) :
    (ofValue origin v).entries = ofEntries origin (rows v) := by
  cases v <;> simp [ofValue, Node.entries, rows, ofEntries]

private theorem valuesOf_ofEntries (k origin : String) (es : List (String × Value)) :
    valuesOf k (ofEntries origin es) = (valuesOf k es).map (ofValue origin) := by
  rw [ofEntries_eq_map, valuesOf_map]

private theorem ofEntries_flatMap_rows (origin : String) (vs : List Value) :
    ofEntries origin (vs.flatMap rows) = (vs.map (ofValue origin)).flatMap Node.entries := by
  simp only [ofEntries_eq_map, List.map_flatMap, List.flatMap_map, entries_ofValue]

/-- A section is made of its entries in all documents, and is not there if no document has it. -/
private theorem lookup_section (h : ∀ l ∈ docs, IsPlain l.2) (s : Section) :
    ((merge docs).entries.lookup s.name = none ∧ sectionNodes docs s = []) ∨
    (merge docs).entries.lookup s.name = some (Node.emptyTable.putAll (sectionNodes docs s)) := by
  have hplain : ∀ e ∈ docs.flatMap fun l => ofEntries l.1 (rows l.2), IsPlainKey e.1 := by
    intro e he
    obtain ⟨l, hl, he⟩ := List.mem_flatMap.1 he
    rw [ofEntries_eq_map] at he
    obtain ⟨e', he', rfl⟩ := List.mem_map.1 he
    exact (h l hl).keys e' he'
  have hvalues : valuesOf s.name (docs.flatMap fun l => ofEntries l.1 (rows l.2)) =
      docs.flatMap fun l => (valuesOf s.name (rows l.2)).map (ofValue l.1) := by
    rw [valuesOf_flatMap]
    simp only [valuesOf_ofEntries]
  -- the entries of a section are those of its tables in all documents
  have hrows : sectionNodes docs s =
      (docs.flatMap fun l => (valuesOf s.name (rows l.2)).map (ofValue l.1)).flatMap Node.entries := by
    rw [sectionNodes, List.flatMap_assoc]
    simp only [sectionRows, ofEntries_flatMap_rows]
  have htables : ∀ n ∈ docs.flatMap fun l => (valuesOf s.name (rows l.2)).map (ofValue l.1),
      ∃ o es, n = .table o es := by
    intro n hn
    obtain ⟨l, hl, hn⟩ := List.mem_flatMap.1 hn
    obtain ⟨v, hv, rfl⟩ := List.mem_map.1 hn
    obtain ⟨es, rfl⟩ := (h l hl).sections s v hv
    exact ⟨some l.1, ofEntries l.1 es, by simp [ofValue]⟩
  rw [merge_eq_putAll fun l hl => (h l hl).keys, Node.isMap_emptyTable.lookup_putAll hplain, hvalues, hrows]
  by_cases hne : (docs.flatMap fun l => (valuesOf s.name (rows l.2)).map (ofValue l.1)) = []
  · left
    rw [hne]
    exact ⟨rfl, rfl⟩
  · right
    exact Node.foldl_laid_of_tables htables hne

/-- In a section a field holds its last value. -/
private theorem lookup_field (h : ∀ l ∈ docs, IsPlain l.2) {f : Schema.Field s.Settings} (hf : f ∈ s.fields) :
    match last? docs s f with
    | some v => ∃ o, (Node.emptyTable.putAll (sectionNodes docs s)).entries.lookup f.name = some (ofValue o v)
    | none => (Node.emptyTable.putAll (sectionNodes docs s)).entries.lookup f.name = none := by
  have hplain : ∀ e ∈ sectionNodes docs s, IsPlainKey e.1 := by
    intro e he
    obtain ⟨l, hl, he⟩ := List.mem_flatMap.1 he
    rw [ofEntries_eq_map] at he
    obtain ⟨e', he', rfl⟩ := List.mem_map.1 he
    exact (h l hl).sectionKeys s e' he'
  -- the values together with the documents that they come from
  let pairs : List (String × Value) := docs.flatMap fun l => (given s f l.2).map fun v => (l.1, v)
  have hvalues : valuesOf f.name (sectionNodes docs s) = pairs.map fun p => ofValue p.1 p.2 := by
    rw [sectionNodes, valuesOf_flatMap]
    simp only [valuesOf_ofEntries, pairs, List.map_flatMap, List.map_map, given, Function.comp_def]
  have hlast : last? docs s f = pairs.getLast?.map Prod.snd := by
    rw [← List.getLast?_map, last?]
    simp only [pairs, List.map_flatMap, List.map_map, Function.comp_def, List.map_id']
  have hflat : ∀ n ∈ pairs.map fun p => ofValue p.1 p.2, ∀ o es, n ≠ .table o es := by
    intro n hn o es
    obtain ⟨p, hp, rfl⟩ := List.mem_map.1 hn
    obtain ⟨l, hl, hp⟩ := List.mem_flatMap.1 hp
    obtain ⟨v, hv, rfl⟩ := List.mem_map.1 hp
    have := (h l hl).fields s f hf v hv
    cases v <;> simp_all [ofValue]
  rw [hlast, Node.isMap_emptyTable.lookup_putAll hplain, hvalues, Node.foldl_laid_of_flat hflat, List.getLast?_map]
  cases pairs.getLast? with
  | none => rfl
  | some p => exact ⟨p.1, rfl⟩

/-! ### Reading fields -/

private theorem readFlag_origin {o : String} {v : Value} {b : Bool} (o' : String)
    (h : Lenient.readFlag (ofValue o v) = .ok b) : Lenient.readFlag (ofValue o' v) = .ok b := by
  have htext : ∀ t : String, Lenient.readFlag (.scalar (some o) (.text t)) = .ok b →
      Lenient.readFlag (.scalar (some o') (.text t)) = .ok b := by
    intro t ht
    simp only [Lenient.readFlag] at ht ⊢
    cases hw : Lenient.truth? (Text.lowerString t) with
    | some b' => simpa only [hw] using ht
    | none =>
      rw [hw] at ht
      split at ht
      · rwa [if_pos (by assumption)]
      · split at ht
        · rwa [if_neg (by assumption), if_pos (by assumption)]
        · cases ht
  cases v with
  | null => cases h
  | flag b' => exact h
  | integer n => exact h
  | double d => exact h
  | text t => exact htext t h
  | moment m => exact htext m.text h
  | list items => simp [ofValue, Lenient.readFlag] at h
  | table es => simp [ofValue, Lenient.readFlag] at h

private theorem readUnsigned_origin {o : String} {v : Value} {n : Nat} (o' : String)
    (h : Lenient.readUnsigned (ofValue o v) = .ok n) : Lenient.readUnsigned (ofValue o' v) = .ok n := by
  have htext : ∀ t : String, Lenient.readUnsigned (.scalar (some o) (.text t)) = .ok n →
      Lenient.readUnsigned (.scalar (some o') (.text t)) = .ok n := by
    intro t ht
    simp only [Lenient.readUnsigned] at ht ⊢
    cases hw : Lenient.truth? (Text.lowerString t) with
    | some b => simpa only [hw] using ht
    | none =>
      rw [hw] at ht
      cases hn : Text.unsigned? (wordCount 64) t.toList with
      | some m => simpa only [hn] using ht
      | none =>
        rw [hn] at ht
        cases ht
  cases v with
  | null => cases h
  | flag b => exact h
  | integer m =>
    simp only [ofValue, Lenient.readUnsigned] at h ⊢
    split at h
    · rwa [if_pos (by assumption)]
    · cases h
  | double d => exact h
  | text t => exact htext t h
  | moment m => exact htext m.text h
  | list items => simp [ofValue, Lenient.readUnsigned] at h
  | table es => simp [ofValue, Lenient.readUnsigned] at h

private theorem readWord_origin {o : String} {v : Value} {bits n : Nat} (o' : String)
    (h : Lenient.readWord bits (ofValue o v) = .ok n) : Lenient.readWord bits (ofValue o' v) = .ok n := by
  cases hr : Lenient.readUnsigned (ofValue o v) with
  | error e =>
    rw [Lenient.readWord, hr] at h
    cases h
  | ok k =>
    rw [Lenient.readWord, hr] at h
    rwa [Lenient.readWord, readUnsigned_origin o' hr]

private theorem readText_origin {o : String} {v : Value} {t : String} (o' : String)
    (h : Lenient.readText (ofValue o v) = .ok t) : Lenient.readText (ofValue o' v) = .ok t := by
  cases v with
  | null => cases h
  | list items => simp [ofValue, Lenient.readText] at h
  | table es => simp [ofValue, Lenient.readText] at h
  | _ => exact h

private theorem readChoice_origin {α : Type} {choice : String} {names : List (String × α)} {o : String} {v : Value}
    {a : α} (o' : String) (h : Lenient.readChoice choice names (ofValue o v) = .ok a) :
    Lenient.readChoice choice names (ofValue o' v) = .ok a := by
  cases v with
  | table es =>
    match es, h with
    | [], h => exact h
    | [(k, v)], h => exact h
    | _ :: _ :: _, h => exact h
  | _ => exact h

private theorem map_eq_ok {ε α β : Type} {f : α → β} {x y : Except ε α} (hxy : ∀ a, x = .ok a → y = .ok a) {b : β}
    (h : x.map f = .ok b) : y.map f = .ok b := by
  cases x with
  | error e => cases h
  | ok a => rwa [hxy a rfl]

/-- What a field is read as does not depend on the file that its value comes from. -/
theorem readKind_origin {k : Kind} {v : Value} {o : String} (o' : String) {x : k.Carrier}
    (h : Lenient.readKind k (ofValue o v) = .ok x) : Lenient.readKind k (ofValue o' v) = .ok x := by
  cases k with
  | text => exact readText_origin o' h
  | path => exact readText_origin o' h
  | flag => exact readFlag_origin o' h
  | word16 => exact map_eq_ok (fun n => readWord_origin o') h
  | word32 => exact map_eq_ok (fun n => readWord_origin o') h
  | word64 => exact map_eq_ok (fun n => readWord_origin o') h
  | action => exact readChoice_origin o' h
  | strategy => exact readChoice_origin o' h

/-- What a field comes to by the value that was given to it, if any. -/
def FieldReads (s : Section) (f : Schema.Field s.Settings) (v? : Option Value) (x : f.kind.Carrier) : Prop :=
  match v? with
  | some v => ∃ o, Lenient.readKind f.kind (ofValue o v) = .ok x
  | none => x = f.get s.default

theorem FieldReads.unique {f : Schema.Field s.Settings} {v? : Option Value} {x y : f.kind.Carrier}
    (hx : FieldReads s f v? x) (hy : FieldReads s f v? y) : x = y := by
  cases v? with
  | some v =>
    obtain ⟨o, hx⟩ := hx
    obtain ⟨o', hy⟩ := hy
    have := (readKind_origin o' hx).symm.trans hy
    exact Except.ok.inj this
  | none => exact hx.trans hy.symm

private theorem mapError_eq_ok {ε ε' α : Type} {x : Except ε α} {g : ε → ε'} {a : α} :
    x.mapError g = .ok a ↔ x = .ok a := by
  cases x <;> simp [Except.mapError]

private theorem slots_named {R : Type} (L : Layout R)
    (read : (p : L.Place) → Node → Except Lenient.ReadError (L.Content p)) :
    (L.slots read).map Lenient.named =
      L.slots fun p n => (read p n).mapError (Lenient.ReadError.under (L.name p)) := by
  rw [Layout.slots, Layout.slots, List.map_map]
  refine List.map_congr_left fun p _ => ?_
  simp only [Function.comp_apply, Lenient.named, Slot.mk.injEq, true_and]
  funext n r
  cases read p n <;> rfl

/-- A table is read place by place. -/
private theorem readTable_eq_ok_iff {R : Type} (L : Layout R)
    (read : (p : L.Place) → Node → Except Lenient.ReadError (L.Content p)) {n : Node} (hn : n.IsMap)
    {typeName : String} {base r : R} : Lenient.readRecord typeName (L.slots read) base n = .ok r ↔
      ∀ p ∈ L.places, L.Filled read n.entries base r p := by
  cases n with
  | table o es =>
    rw [Lenient.readRecord, slots_named, Layout.readEntries_eq_ok_iff hn]
    refine forall₂_congr fun p _ => ?_
    simp only [Layout.Filled, Node.entries]
    cases es.lookup (L.name p) with
    | none => rfl
    | some v => exact mapError_eq_ok
  | scalar o v => exact hn.elim
  | list o items => exact hn.elim

/-- A section is read from the last values of its fields. -/
private theorem readSection_eq_ok_iff (h : ∀ l ∈ docs, IsPlain l.2) {x : s.Settings} :
    Lenient.readSection s (Node.emptyTable.putAll (sectionNodes docs s)) = .ok x ↔
      ∀ f ∈ s.fields, FieldReads s f (last? docs s f) (f.get x) := by
  have hmap : (Node.emptyTable.putAll (sectionNodes docs s)).IsMap := Node.isMap_emptyTable.putAll _
  refine (readTable_eq_ok_iff s.layout (fun f => Lenient.readKind f.kind) hmap).trans ?_
  refine forall₂_congr fun f hf => ?_
  have hlookup := lookup_field h hf
  cases hlast : last? docs s f with
  | none =>
    rw [hlast] at hlookup
    simp only [Layout.Filled, Section.layout, hlookup, s.fallback_eq_default]
    exact Iff.rfl
  | some v =>
    rw [hlast] at hlookup
    obtain ⟨o, ho⟩ := hlookup
    simp only [Layout.Filled, Section.layout, ho]
    -- the value may be said to come from any file
    refine ⟨fun h => ⟨o, h⟩, ?_⟩
    rintro ⟨o', h⟩
    exact readKind_origin o h

/-- Layers are read as a configuration exactly when each of its fields is what the last value for it says, or its
default if there is none. -/
theorem read_merge_eq_ok_iff (h : ∀ l ∈ docs, IsPlain l.2) {c : Config} :
    Lenient.read (merge docs) = .ok c ↔
      ∀ s : Section, ∀ f ∈ s.fields, FieldReads s f (last? docs s f) (f.get (s.get c)) := by
  have hmap : (merge docs).IsMap := by
    rw [merge_eq_putAll fun l hl => (h l hl).keys]
    exact Node.isMap_emptyTable.putAll _
  refine (readTable_eq_ok_iff configLayout Lenient.readSection hmap).trans ?_
  have hsection : ∀ s : Section, configLayout.Filled Lenient.readSection (merge docs).entries {} c s ↔
      ∀ f ∈ s.fields, FieldReads s f (last? docs s f) (f.get (s.get c)) := by
    intro s
    rw [← readSection_eq_ok_iff h]
    rcases lookup_section h s with ⟨hnone, hempty⟩ | hsome
    · -- a section that no document has is read like an empty one
      have hread : Lenient.readSection s (Node.emptyTable.putAll []) = .ok s.default := by
        rw [Node.putAll, ← s.fallback_eq_default]
        rfl
      rw [hempty, hread]
      simp only [Layout.Filled, configLayout, hnone, s.get_default, Except.ok.injEq]
      exact eq_comm
    · simp only [Layout.Filled, configLayout, hsome]
  exact ⟨fun hall s => (hsection s).1 (hall s s.mem_all), fun hall s _ => (hsection s).2 (hall s)⟩

/-! ### The document of the last values -/

/-- The document that holds, for each field, the last value that documents have for it. -/
def combined (docs : List (String × Value)) : Value :=
  .table (Section.all.map fun s =>
    (s.name, .table (s.fields.filterMap fun f => (last? docs s f).map fun v => (f.name, v))))

/-- Entries made of places hold under the name of a place what was made of that place. -/
private theorem valuesOf_places {R α : Type} (L : Layout R) (g : L.Place → Option α) {p : L.Place}
    (hp : p ∈ L.places) :
    valuesOf (L.name p) (L.places.filterMap fun q => (g q).map fun v => (L.name q, v)) = (g p).toList := by
  -- any part of the places has a value under the name only if the place is among them
  have hall : ∀ qs : List L.Place, (qs.map L.name).Nodup → (∀ q ∈ qs, q ∈ L.places) →
      valuesOf (L.name p) (qs.filterMap fun q => (g q).map fun v => (L.name q, v)) =
        if L.name p ∈ qs.map L.name then (g p).toList else [] := by
    intro qs
    induction qs with
    | nil => exact fun _ _ => rfl
    | cons q qs ih =>
      intro hnodup hqs
      rw [List.map_cons, List.nodup_cons] at hnodup
      have ih := ih hnodup.2 fun q hq => hqs q (by simp [hq])
      by_cases hqp : L.name q = L.name p
      · obtain rfl := L.eq_of_name_eq (hqs q (by simp)) hp hqp
        rw [if_neg hnodup.1] at ih
        rw [if_pos (by simp)]
        cases hg : g q with
        | none => simpa [hg] using ih
        | some v => simp [hg, valuesOf_cons_self, ih]
      · have hmem : L.name p ∈ (q :: qs).map L.name ↔ L.name p ∈ qs.map L.name := by
          simp [Ne.symm hqp]
        rw [if_congr hmem rfl rfl, ← ih]
        cases hg : g q with
        | none => simp [hg]
        | some v => simp [hg, valuesOf_cons_of_ne hqp]
  rw [hall L.places L.names_nodup fun _ hq => hq, if_pos (List.mem_map.2 ⟨p, hp, rfl⟩)]

private def fieldRows (docs : List (String × Value)) (s : Section) : List (String × Value) :=
  s.fields.filterMap fun f => (last? docs s f).map fun v => (f.name, v)

private theorem valuesOf_combined (docs : List (String × Value)) (s : Section) :
    valuesOf s.name (rows (combined docs)) = [.table (fieldRows docs s)] := by
  have h := valuesOf_places configLayout (fun s => some (Value.table (fieldRows docs s))) s.mem_all
  have hrows : rows (combined docs) =
      configLayout.places.filterMap fun s => (some (Value.table (fieldRows docs s))).map fun v => (s.name, v) := by
    rw [combined, rows, ← List.filterMap_eq_map]
    rfl
  rw [hrows]
  exact h

private theorem sectionRows_combined (docs : List (String × Value)) (s : Section) :
    sectionRows s (combined docs) = fieldRows docs s := by
  rw [sectionRows, valuesOf_combined, List.flatMap_singleton]
  rfl

private theorem given_combined (docs : List (String × Value)) {s : Section} {f : Schema.Field s.Settings}
    (hf : f ∈ s.fields) : given s f (combined docs) = (last? docs s f).toList := by
  rw [given, sectionRows_combined]
  exact valuesOf_places s.layout (last? docs s) hf

/-- The document of the last values has the same last values. -/
theorem last?_combined (docs : List (String × Value)) (origin : String) {f : Schema.Field s.Settings}
    (hf : f ∈ s.fields) : last? [(origin, combined docs)] s f = last? docs s f := by
  rw [last?, List.flatMap_singleton, given_combined docs hf]
  cases last? docs s f <;> rfl

theorem isPlainKey_section (s : Section) : IsPlainKey s.name := by
  cases s <;> exact ⟨by decide, by decide⟩

theorem isPlainKey_field (s : Section) : ∀ f ∈ s.fields, IsPlainKey f.name := by
  have hall : (s.fields.all fun f => f.name.toList != [] && f.name.toList.all isPlainChar) = true := by
    cases s <;> decide
  intro f hf
  simpa [IsPlainKey] using List.all_eq_true.1 hall f hf

theorem isPlain_combined (h : ∀ l ∈ docs, IsPlain l.2) : IsPlain (combined docs) where
  keys e he := by
    obtain ⟨s, -, rfl⟩ := List.mem_map.1 he
    exact isPlainKey_section s
  sections s v hv := by
    rw [valuesOf_combined, List.mem_singleton] at hv
    exact ⟨_, hv⟩
  sectionKeys s e he := by
    rw [sectionRows_combined] at he
    obtain ⟨f, hf, he⟩ := List.mem_filterMap.1 he
    obtain ⟨v, -, rfl⟩ := Option.map_eq_some_iff.1 he
    exact isPlainKey_field s f hf
  fields s f hf v hv := by
    rw [given_combined docs hf, Option.mem_toList] at hv
    obtain ⟨l, hl, hv⟩ := List.mem_flatMap.1 (List.mem_of_getLast? hv)
    exact (h l hl).fields s f hf v hv

/-! ### Layers with the same last values -/

variable {docs' : List (String × Value)}

/-- Layers that agree in the last value of every field are read alike. -/
theorem read_merge_congr (h : ∀ l ∈ docs, IsPlain l.2) (h' : ∀ l ∈ docs', IsPlain l.2)
    (hlast : ∀ s : Section, ∀ f ∈ s.fields, last? docs' s f = last? docs s f) :
    (Lenient.read (merge docs')).toOption = (Lenient.read (merge docs)).toOption := by
  refine toOption_congr fun c => ?_
  rw [read_merge_eq_ok_iff h, read_merge_eq_ok_iff h']
  refine forall_congr' fun s => forall₂_congr fun f hf => ?_
  rw [hlast s f hf]

/-- Where layers agree in the last value of a field, they agree in the field. -/
theorem field_congr (h : ∀ l ∈ docs, IsPlain l.2) (h' : ∀ l ∈ docs', IsPlain l.2) {c c' : Config}
    (hc : Lenient.read (merge docs) = .ok c) (hc' : Lenient.read (merge docs') = .ok c') {f : Schema.Field s.Settings}
    (hf : f ∈ s.fields) (hlast : last? docs' s f = last? docs s f) : f.get (s.get c') = f.get (s.get c) := by
  have hfield := (read_merge_eq_ok_iff h).1 hc s f hf
  have hfield' := (read_merge_eq_ok_iff h').1 hc' s f hf
  rw [hlast] at hfield'
  exact hfield'.unique hfield

/-- A layer without a value for a field leaves it to the others. -/
theorem last?_of_given_eq_nil {before after : List (String × Value)} {l : String × Value}
    {f : Schema.Field s.Settings} (h : given s f l.2 = []) :
    last? (before ++ l :: after) s f = last? (before ++ after) s f := by
  rw [last?, last?, List.flatMap_append, List.flatMap_append, List.flatMap_cons, h, List.nil_append]

end AppLauncher.Config.Layer

namespace AppLauncher.Config.Load

open AppLauncher.Document AppLauncher.Schema AppLauncher.Storage AppLauncher.Config.Layer

theorem fromFiles_eq_ok_iff {d : Disk} {base : String} {environment : Option String} {docs : List (String × Value)}
    (h : layers d base environment = .ok docs) {c : Config} :
    fromFiles d base environment = .ok c ↔ Lenient.read (merge docs) = .ok c := by
  cases hread : Lenient.read (merge docs) with
  | ok c' =>
    have hload : fromFiles d base environment = .ok c' := by
      unfold fromFiles
      simp only [h, Bind.bind, Except.bind, hread]
    rw [hload, Except.ok.injEq, Except.ok.injEq]
  | error e =>
    have hload : fromFiles d base environment = .error (.unreadable e) := by
      unfold fromFiles
      simp only [h, Bind.bind, Except.bind, hread]
    simp only [hload, reduceCtorEq]

/-- Files are loaded field by field: as the one document of the last values is, and as any other files are whose layers
have the same last values.  A field on which two loads agree so is the same in both, a layer changes nothing where it
has no values, and a field without any value has its default. -/
theorem fromFiles_fieldwise {d : Disk} {base : String} {environment : Option String} {docs : List (String × Value)}
    (hdocs : layers d base environment = .ok docs) (hplain : ∀ l ∈ docs, IsPlain l.2) :
    (IsPlain (combined docs) ∧
      (∀ origin, (fromFiles d base environment).toOption =
        (Lenient.read (merge [(origin, combined docs)])).toOption) ∧
      ∀ d' base' environment' origin, layers d' base' environment' = .ok [(origin, combined docs)] →
        (fromFiles d' base' environment').toOption = (fromFiles d base environment).toOption) ∧
    (∀ d' base' environment' docs', layers d' base' environment' = .ok docs' → (∀ l ∈ docs', IsPlain l.2) →
      ((∀ s : Section, ∀ f ∈ s.fields, last? docs' s f = last? docs s f) →
        (fromFiles d' base' environment').toOption = (fromFiles d base environment).toOption) ∧
      ∀ c c', fromFiles d base environment = .ok c → fromFiles d' base' environment' = .ok c' →
        ∀ s : Section, ∀ f ∈ s.fields, last? docs' s f = last? docs s f → f.get (s.get c') = f.get (s.get c)) ∧
    (∀ before l after, docs = before ++ l :: after →
      (∀ s : Section, ∀ f ∈ s.fields, given s f l.2 = []) →
        (fromFiles d base environment).toOption = (Lenient.read (merge (before ++ after))).toOption) ∧
    (∀ before l after c c', docs = before ++ l :: after → fromFiles d base environment = .ok c →
      Lenient.read (merge (before ++ after)) = .ok c' →
        ∀ s : Section, ∀ f ∈ s.fields, given s f l.2 = [] → f.get (s.get c') = f.get (s.get c)) ∧
    ∀ c, fromFiles d base environment = .ok c →
      ∀ s : Section, ∀ f ∈ s.fields, last? docs s f = none → f.get (s.get c) = f.get s.default := by
  have hload : (fromFiles d base environment).toOption = (Lenient.read (merge docs)).toOption :=
    toOption_congr fun c => fromFiles_eq_ok_iff hdocs
  have hcombined : ∀ origin, (fromFiles d base environment).toOption =
      (Lenient.read (merge [(origin, combined docs)])).toOption := by
    intro origin
    have hplain' : ∀ l ∈ [(origin, combined docs)], IsPlain l.2 := by
      simpa using isPlain_combined hplain
    rw [hload]
    exact (read_merge_congr hplain hplain' fun s f hf => last?_combined docs origin hf).symm
  refine ⟨⟨isPlain_combined hplain, hcombined, ?_⟩, fun d' base' environment' docs' hdocs' hplain' => ⟨?_, ?_⟩,
    ?_, ?_, ?_⟩
  · intro d' base' environment' origin hsingle
    rw [hcombined origin]
    exact toOption_congr fun c => fromFiles_eq_ok_iff hsingle
  · intro hlast
    rw [hload, toOption_congr fun c => fromFiles_eq_ok_iff hdocs']
    exact read_merge_congr hplain hplain' hlast
  · intro c c' hc hc' s f hf hlast
    exact field_congr hplain hplain' ((fromFiles_eq_ok_iff hdocs).1 hc) ((fromFiles_eq_ok_iff hdocs').1 hc') hf hlast
  · rintro before l after rfl hnone
    rw [hload]
    have hplain' : ∀ l ∈ before ++ after, IsPlain l.2 := fun l hl => hplain l (by simp at hl ⊢; tauto)
    exact (read_merge_congr hplain hplain' fun s f hf => (last?_of_given_eq_nil (hnone s f hf)).symm).symm
  · rintro before l after c c' rfl hc hc' s f hf hnone
    have hplain' : ∀ l ∈ before ++ after, IsPlain l.2 := fun l hl => hplain l (by simp at hl ⊢; tauto)
    exact field_congr hplain hplain' ((fromFiles_eq_ok_iff hdocs).1 hc) hc' hf (last?_of_given_eq_nil hnone).symm
  · intro c hc s f hf hnone
    have hfield := (read_merge_eq_ok_iff hplain).1 ((fromFiles_eq_ok_iff hdocs).1 hc) s f hf
    rw [hnone] at hfield
    exact hfield

/-! ### Two files that differ -/

private def clientText (b : Bool) : List Char :=
  '[' :: "client".toList ++ [']', '\n'] ++
    ("enabled".toList ++ " = ".toList ++ (if b then "true".toList else "false".toList) ++ ['\n'])

private def clientDocument (b : Bool) : Value := .table [("client", .table [("enabled", .flag b)])]

private theorem read?_clientText (b : Bool) : Toml.read? (clientText b) = some (clientDocument b) := by
  have hclient : Toml.IsBareName "client" := ⟨by decide, by decide⟩
  have henabled : Toml.IsBareName "enabled" := ⟨by decide, by decide⟩
  have hvalue : Toml.ValueText (if b then "true".toList else "false".toList) (.flag b) := by
    cases b <;> exact ⟨fun _ => rfl, fun _ => rfl⟩
  have hopen : Toml.Draft.empty.openTable [] "client" = some (.filling [] "client" []) := rfl
  have hput : (Toml.Draft.filling [] "client" []).put [] "enabled" (.flag b) =
      some (.filling [] "client" [("enabled", .value (.flag b))]) := rfl
  have hreads : Toml.Consumes Toml.Draft.empty (clientText b) _ :=
    (Toml.consumes_header hclient hopen).trans (Toml.consumes_keyLine henabled hvalue hput)
  rw [Toml.read?_of_consumes hreads (by cases b <;> decide)]
  rfl

/-- A layer whose name is no file itself stands in the file with the extension. -/
theorem findFile_eq_ok {d : Disk} {name path : String} (hpath : withExtension (absolute d name) = path)
    (hno : d.isFile (absolute d name) = false) (hfile : d.isFile path = true) : findFile d name = .ok path := by
  simp [findFile, hpath, hno, hfile]

theorem findFile_eq_notFound {d : Disk} {name : String} (hno : d.isFile (absolute d name) = false)
    (hno' : d.isFile (withExtension (absolute d name)) = false) : findFile d name = .error (.notFound name) := by
  simp [findFile, hno, hno']

theorem readLayer_eq_ok {d : Disk} {name path file : String} {cs : List Char} {v : Value}
    (hfind : findFile d name = .ok path) (hrelative : relative d path = file)
    (hdata : (d.read path).toOption.bind Text.Utf8.decode? = some cs) (hv : Toml.read? cs = some v) :
    readLayer d name = .ok (file, v) := by
  rw [readLayer, hfind]
  simp [Bind.bind, Except.bind, hdata, hrelative, hv]

/-- A layer without a file is not found. -/
theorem readLayer_eq_notFound {d : Disk} {name : String} (hfind : findFile d name = .error (.notFound name)) :
    readLayer d name = .error (.notFound name) := by
  simp only [readLayer, hfind, Bind.bind, Except.bind]

/-- An optional layer without a file is no layer. -/
theorem readOptional_eq_nil {d : Disk} {name : String} (hfind : findFile d name = .error (.notFound name)) :
    readOptional d name = .ok [] := by
  unfold readOptional
  simp only [readLayer_eq_notFound hfind]

private theorem layers_eq_ok {d : Disk} {base environment : String} {first third : String × Value}
    (hfirst : readLayer d base = .ok first)
    (hsecond : findFile d (base ++ "." ++ environment) = .error (.notFound (base ++ "." ++ environment)))
    (hthird : readLayer d (base ++ ".local") = .ok third) :
    layers d base (some environment) = .ok [first, third] := by
  have hnone := readOptional_eq_nil hsecond
  have hsome : readOptional d (base ++ ".local") = .ok [third] := by
    unfold readOptional
    simp only [hthird]
  unfold layers
  simp only [hfirst, hnone, hsome]
  rfl

private def twoFiles : Disk :=
  ⟨.directory [("a.toml", .file (Text.Utf8.ofString (String.ofList (clientText true))) false 0),
    ("a.local.toml", .file (Text.Utf8.ofString (String.ofList (clientText false))) false 0)], []⟩

private theorem isPlain_clientDocument (b : Bool) : IsPlain (clientDocument b) where
  keys := by
    intro e he
    obtain rfl := List.mem_singleton.1 he
    have hclient : IsPlainKey "client" := ⟨by decide, by decide⟩
    exact hclient
  sections s v hv := by
    cases s <;> simp [clientDocument, rows, valuesOf, Section.name] at hv
    exact ⟨_, hv⟩
  sectionKeys s e he := by
    cases s <;> simp [clientDocument, sectionRows, rows, valuesOf, Section.name] at he
    have henabled : IsPlainKey "enabled" := ⟨by decide, by decide⟩
    rwa [he]
  fields s f hf v hv es := by
    cases s <;> simp [clientDocument, given, sectionRows, rows, valuesOf, Section.name] at hv
    simp [← hv.2]

private def twoDocuments : List (String × Value) :=
  [("a.toml", clientDocument true), ("a.local.toml", clientDocument false)]

private theorem layers_twoFiles : layers twoFiles "a" (some "test") = .ok twoDocuments := by
  have hbase : withExtension (absolute twoFiles "a") = "/a.toml" := by decide +kernel
  have hlocal : withExtension (absolute twoFiles ("a" ++ ".local")) = "/a.local.toml" := by decide +kernel
  refine layers_eq_ok (readLayer_eq_ok (findFile_eq_ok hbase ?_ ?_) ?_ ?_ (read?_clientText true))
    (findFile_eq_notFound ?_ ?_) (readLayer_eq_ok (findFile_eq_ok hlocal ?_ ?_) ?_ ?_ (read?_clientText false))
  all_goals decide +kernel

/-- The local file says otherwise than the base file, and what it says is loaded. -/
theorem fromFiles_fieldwise_local :
    (fromFiles twoFiles "a" (some "test")).toOption =
        (Lenient.read (merge [("b.toml", combined twoDocuments)])).toOption ∧
      last? twoDocuments .client ⟨"enabled", .flag, (·.enabled), fun v s => { s with enabled := v }⟩ =
        some (.flag false) := by
  have hplain : ∀ l ∈ twoDocuments, IsPlain l.2 := by
    simp [twoDocuments, isPlain_clientDocument]
  exact ⟨(fromFiles_fieldwise layers_twoFiles hplain).1.2.1 "b.toml", rfl⟩

end AppLauncher.Config.Load
