import AppLauncher.Proofs.Config.RoundTrip

/-!
# What a document leaves out

A document gives values to some fields of some sections.  What it gives is read field by field, and every other field
has its default, in either format and for sections written as tables or as lists (`read_eq_ok_iff`).  So it makes no
difference what stands under other keys or how a section is written, and a single number that is out of range is
enough to fail (`read_fieldwise`).
-/

namespace AppLauncher.Config.Strict

open AppLauncher.Document AppLauncher.Schema
open AppLauncher.Config.Render (kindValue readKind_kindValue)

/-! ### What a document gives -/

/-- The entries of a section: those of its table, or the items of its list under the names of its first fields. -/
def fieldEntries (s : Schema.Section) : Value → List (String × Value)
  | .table es => es
  | .list items => (s.fields.map Field.name).zip items
  | _ => []

/-- What the root of a document gives for the fields of a section. -/
def given (es : List (String × Value)) (s : Schema.Section) : List (String × Value) :=
  (es.lookup s.name).elim [] (fieldEntries s)

/-- The ways to write a section: a table without a key that stands twice, or a list of its first fields. -/
inductive IsRecord (s : Schema.Section) : Value → Prop
  | table {es : List (String × Value)} (keys : (es.map Prod.fst).Nodup) : IsRecord s (.table es)
  | list {items : List Value} (fits : items.length ≤ s.fields.length) : IsRecord s (.list items)

/-- The root of a document with every section that it has written in one of the ways. -/
structure IsDocument (es : List (String × Value)) : Prop where
  keys : (es.map Prod.fst).Nodup
  sections : ∀ s v, es.lookup s.name = some v → IsRecord s v

/-- Which fields are kept, by section and name. -/
abbrev Kept := Schema.Section → String → Bool

/-- A document that contains what a configuration holds in the fields that are kept, and nothing in the others. -/
structure Contains (c : Config) (kept : Kept) (es : List (String × Value)) : Prop extends IsDocument es where
  values : ∀ s, ∀ g ∈ s.fields, (given es s).lookup g.name =
    if kept s g.name then some (kindValue g.kind (g.get (s.get c))) else none

/-- The entries of the fields that are kept of a section. -/
def keptEntries (c : Config) (kept : Kept) (s : Schema.Section) : List (String × Value) :=
  (s.fields.filter fun g => kept s g.name).map fun g => (g.name, kindValue g.kind (g.get (s.get c)))

/-- The document of the sections that are present, each with the fields that are kept of it. -/
def part (c : Config) (present : Schema.Section → Bool) (kept : Kept) : List (String × Value) :=
  (Section.all.filter present).map fun s => (s.name, .table (keptEntries c kept s))

/-- The first entries and others with keys that are not known, in any order. -/
def Adds (known : List String) (es es' : List (String × Value)) : Prop :=
  (es'.map Prod.fst).Nodup ∧ ∃ extra, (∀ e ∈ extra, e.1 ∉ known) ∧ es'.Perm (es ++ extra)

/-- The bits of a number that a field of a kind holds. -/
def bits? : Kind → Option Nat
  | .word16 => some 16
  | .word32 => some 32
  | .word64 => some 64
  | _ => none

/-! ### Reading what is given -/

variable {f : Format} {s : Schema.Section} {es : List (String × Value)}

private theorem ordered_perm (f : Format) (es : List (String × Value)) : (ordered f es).Perm es := by
  cases f with
  | json => exact List.mergeSort_perm _ _
  | toml => exact List.Perm.refl _

/-- A table is read place by place, in whatever order its entries are read. -/
private theorem readRecord_table_eq_ok_iff {R : Type} (L : Layout R)
    (read : (p : L.Place) → Value → Except ReadError (L.Content p)) (hkeys : (es.map Prod.fst).Nodup)
    {typeName : String} {base r : R} :
    readRecord f typeName (L.slots read) base (.table es) = .ok r ↔ ∀ p ∈ L.places, L.Filled read es base r p := by
  have hperm := ordered_perm f es
  have hordered : ((ordered f es).map Prod.fst).Nodup := (hperm.map Prod.fst).nodup_iff.2 hkeys
  rw [readRecord, Layout.readEntries_eq_ok_iff hordered]
  exact forall₂_congr fun p _ => Layout.filled_congr (lookup_eq_of_perm hperm hordered _)

/-- A list that is no longer than the record is read as the entries under the names of its first places. -/
private theorem readRecord_list_eq_ok_iff {R : Type} (L : Layout R)
    (read : (p : L.Place) → Value → Except ReadError (L.Content p)) {items : List Value}
    (hfits : items.length ≤ L.places.length) {typeName : String} {base r : R} :
    readRecord f typeName (L.slots read) base (.list items) = .ok r ↔
      ∀ p ∈ L.places, L.Filled read ((L.places.map L.name).zip items) base r p := by
  have hnames : (L.slots read).map Slot.name = L.places.map L.name := by
    rw [Layout.slots, List.map_map]
    rfl
  have hkeys : (((L.places.map L.name).zip items).map Prod.fst).Nodup := by
    rw [List.zip_eq_zip_take_min, List.map_fst_zip (by simp)]
    exact L.names_nodup.sublist (List.take_sublist _ _)
  have hlength : ¬ (L.slots read).length < items.length := by
    rw [Layout.slots, List.length_map]
    omega
  rw [← Layout.readEntries_eq_ok_iff hkeys, ← hnames,
    ← readItems_eq_readEntries (by rw [hnames]; exact L.names_nodup), readRecord]
  cases readItems (L.slots read) items base with
  | ok r' => simp [bind, Except.bind, hlength]
  | error e => simp [bind, Except.bind]

/-- A section is read field by field. -/
theorem readSection_eq_ok_iff {v : Value} (h : IsRecord s v) {x : s.Settings} :
    readSection f s v = .ok x ↔
      ∀ g ∈ s.fields, s.layout.Filled (fun g => readKind f g.kind) (fieldEntries s v) s.default x g := by
  rw [← s.fallback_eq_default]
  cases h with
  | table hkeys => exact readRecord_table_eq_ok_iff s.layout (fun g => readKind f g.kind) hkeys
  | list hfits => exact readRecord_list_eq_ok_iff s.layout (fun g => readKind f g.kind) hfits

/-- A document is read field by field: what it gives for a field is read, and any other field has its default. -/
theorem read_eq_ok_iff (h : IsDocument es) {c : Config} :
    read f (.table es) = .ok c ↔ ∀ s : Schema.Section, ∀ g ∈ s.fields,
      s.layout.Filled (fun g => readKind f g.kind) (given es s) (s.get {}) (s.get c) g := by
  refine (readRecord_table_eq_ok_iff configLayout (readSection f) h.keys).trans ?_
  have hsection : ∀ s : Schema.Section, configLayout.Filled (readSection f) es {} c s ↔
      ∀ g ∈ s.fields, s.layout.Filled (fun g => readKind f g.kind) (given es s) (s.get {}) (s.get c) g := by
    intro s
    cases hlookup : es.lookup s.name with
    | some v =>
      simp only [Layout.Filled, configLayout, given, hlookup, Option.elim]
      rw [readSection_eq_ok_iff (h.sections s v hlookup), s.get_default]
      rfl
    | none =>
      -- a section that is not there has the default of each of its fields
      simp only [Layout.Filled, configLayout, given, hlookup, Option.elim, List.lookup_nil]
      exact ⟨fun heq g _ => by rw [heq], s.layout.ext _ _⟩
  exact ⟨fun hall s => (hsection s).1 (hall s s.mem_all), fun hall s _ => (hsection s).2 (hall s)⟩

/-! ### Documents with some of the fields -/

private theorem lookup_part (c : Config) (present : Schema.Section → Bool) (kept : Kept) (s : Schema.Section) :
    (part c present kept).lookup s.name = if present s then some (.table (keptEntries c kept s)) else none :=
  configLayout.lookup_places present (fun s => Value.table (keptEntries c kept s)) s.mem_all

/-- The document of some sections and fields contains just these. -/
theorem contains_part (c : Config) (present : Schema.Section → Bool) (kept : Kept) :
    Contains c (fun s name => present s && kept s name) (part c present kept) where
  keys := by
    rw [part, List.map_map]
    exact configLayout.names_nodup.sublist (List.filter_sublist.map _)
  sections s v hv := by
    rw [lookup_part] at hv
    split at hv
    · obtain rfl := Option.some.inj hv
      refine .table ?_
      rw [keptEntries, List.map_map]
      exact s.layout.names_nodup.sublist (List.filter_sublist.map _)
    · cases hv
  values s g hg := by
    rw [given, lookup_part]
    cases present s with
    | true =>
      exact s.layout.lookup_places (fun g => kept s g.name) (fun g => kindValue g.kind (g.get (s.get c))) hg
    | false => rfl

/-- What a document contains of a configuration is read, and what it leaves out has its default. -/
theorem read_of_contains {c : Config} {kept : Kept} (h : Contains c kept es) :
    ∃ c', read f (.table es) = .ok c' ∧ ∀ s : Schema.Section, ∀ g ∈ s.fields,
      g.get (s.get c') = if kept s g.name then g.get (s.get c) else g.get (s.get {}) := by
  have hsections : ∀ s : Schema.Section, ∃ x : s.Settings, ∀ g ∈ s.fields,
      g.get x = if kept s g.name then g.get (s.get c) else g.get (s.get {}) := fun s =>
    s.layout.exists_record (fun g => if kept s g.name then g.get (s.get c) else g.get (s.get {})) (s.get {})
  choose x hx using hsections
  obtain ⟨c', hc'⟩ := configLayout.exists_record x {}
  have hget : ∀ s : Schema.Section, s.get c' = x s := fun s => hc' s s.mem_all
  refine ⟨c', ?_, fun s g hg => by rw [hget, hx s g hg]⟩
  rw [read_eq_ok_iff h.toIsDocument]
  intro s g hg
  have hfield : g.get (s.get c') = if kept s g.name then g.get (s.get c) else g.get (s.get {}) := by
    rw [hget, hx s g hg]
  have hvalue := h.values s g hg
  by_cases hkept : kept s g.name
  · rw [if_pos hkept] at hfield hvalue
    simp only [Layout.Filled, Section.layout, hvalue, hfield, readKind_kindValue]
  · rw [if_neg hkept] at hfield hvalue
    simp only [Layout.Filled, Section.layout, hvalue, hfield]

/-! ### Changes that make no difference -/

/-- Keys that are not known make no difference to what the known ones hold. -/
private theorem Adds.lookup {known : List String} {es' : List (String × Value)} (h : Adds known es es') {k : String}
    (hk : k ∈ known) : es'.lookup k = es.lookup k := by
  obtain ⟨hkeys, extra, hextra, hperm⟩ := h
  have hno : extra.lookup k = none := lookup_eq_none_of_notMem fun hmem => by
    obtain ⟨e, he, rfl⟩ := List.mem_map.1 hmem
    exact hextra e he hk
  rw [lookup_eq_of_perm hperm hkeys, List.lookup_append, hno, Option.or_none]

private theorem Adds.nodup {known : List String} {es' : List (String × Value)} (h : Adds known es es') :
    (es.map Prod.fst).Nodup := by
  obtain ⟨hkeys, extra, -, hperm⟩ := h
  have := (hperm.map Prod.fst).nodup_iff.1 hkeys
  rw [List.map_append] at this
  exact this.of_append_left

/-- Keys that name no section make no difference. -/
theorem read_adds {es' : List (String × Value)} (h : Adds (Section.all.map Section.name) es es') :
    (read f (.table es')).toOption = (read f (.table es)).toOption := by
  refine toOption_congr fun c => ?_
  refine (readRecord_table_eq_ok_iff configLayout (readSection f) h.1).trans
    (Iff.trans ?_ (readRecord_table_eq_ok_iff configLayout (readSection f) h.nodup).symm)
  exact forall₂_congr fun s hs => Layout.filled_congr (h.lookup (List.mem_map.2 ⟨s, hs, rfl⟩))

/-- A section may be replaced by one that is read alike. -/
private theorem read_setEntry (hkeys : (es.map Prod.fst).Nodup) {v v' : Value} (hv : es.lookup s.name = some v)
    (hread : ∀ x, readSection f s v' = .ok x ↔ readSection f s v = .ok x) :
    (read f (.table (setEntry s.name v' es))).toOption = (read f (.table es)).toOption := by
  refine toOption_congr fun c => ?_
  refine (readRecord_table_eq_ok_iff configLayout (readSection f) (nodup_keys_setEntry s.name v' hkeys)).trans
    (Iff.trans ?_ (readRecord_table_eq_ok_iff configLayout (readSection f) hkeys).symm)
  refine forall₂_congr fun t ht => ?_
  have hlookup := lookup_setEntry s.name t.name v' es
  by_cases hname : t.name = s.name
  · obtain rfl : t = s := configLayout.eq_of_name_eq ht s.mem_all hname
    rw [if_pos rfl] at hlookup
    simp only [Layout.Filled, configLayout, hlookup, hv]
    exact hread _
  · rw [if_neg hname] at hlookup
    simp only [Layout.Filled, configLayout, hlookup]

/-- Keys of a section that name none of its fields make no difference. -/
theorem read_adds_section (hkeys : (es.map Prod.fst).Nodup) {fs fs' : List (String × Value)}
    (hfs : es.lookup s.name = some (.table fs)) (h : Adds (s.fields.map Field.name) fs fs') :
    (read f (.table (setEntry s.name (.table fs') es))).toOption = (read f (.table es)).toOption := by
  refine read_setEntry hkeys hfs fun x => ?_
  rw [readSection_eq_ok_iff (.table h.1), readSection_eq_ok_iff (.table h.nodup)]
  exact forall₂_congr fun g hg => Layout.filled_congr (h.lookup (List.mem_map.2 ⟨g, hg, rfl⟩))

/-- The first fields of a section may be written as a table in any order or as a list in the order of the fields. -/
theorem read_listed (hkeys : (es.map Prod.fst).Nodup) {fs : List (String × Value)} {items : List Value}
    (hfs : es.lookup s.name = some (.table fs)) (hfits : items.length ≤ s.fields.length)
    (hperm : fs.Perm ((s.fields.map Field.name).zip items)) :
    (read f (.table (setEntry s.name (.list items) es))).toOption = (read f (.table es)).toOption := by
  have hnames : (fs.map Prod.fst).Nodup := by
    rw [(hperm.map Prod.fst).nodup_iff, List.zip_eq_zip_take_min, List.map_fst_zip (by simp)]
    exact s.layout.names_nodup.sublist (List.take_sublist _ _)
  refine read_setEntry hkeys hfs fun x => ?_
  rw [readSection_eq_ok_iff (.list hfits), readSection_eq_ok_iff (.table hnames)]
  exact forall₂_congr fun g _ => Layout.filled_congr (lookup_eq_of_perm hperm hnames _).symm

/-! ### Numbers out of range -/

theorem eq_of_readNumber {bound : Nat} {expected : String} {v : Value} {m : Nat}
    (h : readNumber bound expected v = .ok m) : m < bound ∧ v = .integer m := by
  cases v with
  | integer n =>
    simp only [readNumber] at h
    split at h
    · rename_i hn
      obtain rfl := Except.ok.inj h
      exact ⟨by omega, by rw [Int.toNat_of_nonneg hn.1]⟩
    · cases h
  | _ => cases h

/-- Only a whole number in the range of its field is read. -/
theorem eq_integer_of_readKind {k : Kind} {b : Nat} (hb : bits? k = some b) {v : Value} {x : k.Carrier}
    (h : readKind f k v = .ok x) : ∃ n : Nat, n < wordCount b ∧ v = .integer n := by
  have hnumber : ∀ {α : Type} {expected : String} {g : Nat → α} {y : α},
      (readNumber (wordCount b) expected v).map g = .ok y → ∃ n : Nat, n < wordCount b ∧ v = .integer n := by
    intro α expected g y hread
    cases hm : readNumber (wordCount b) expected v with
    | ok m => exact ⟨m, eq_of_readNumber hm⟩
    | error e =>
      rw [hm] at hread
      cases hread
  cases k with
  | word16 => cases hb; exact hnumber h
  | word32 => cases hb; exact hnumber h
  | word64 => cases hb; exact hnumber h
  | _ => cases hb

/-- A document fails as a whole when what it gives for a number is no whole number in the range of the field. -/
theorem read_eq_error (h : IsDocument es) {g : Schema.Field s.Settings} (hg : g ∈ s.fields) {b : Nat}
    (hb : bits? g.kind = some b) {v : Value} (hv : (given es s).lookup g.name = some v)
    (hrange : ∀ n : Nat, n < wordCount b → v ≠ .integer n) : ∃ e, read f (.table es) = .error e := by
  cases hread : read f (.table es) with
  | error e => exact ⟨e, rfl⟩
  | ok c =>
    have hfield := (read_eq_ok_iff h).1 hread s g hg
    simp only [Layout.Filled, Section.layout, hv] at hfield
    obtain ⟨n, hn, rfl⟩ := eq_integer_of_readKind hb hfield
    exact absurd rfl (hrange n hn)

/-! ### Field by field -/

/-- Documents of either format are read field by field.  Every choice of sections and fields is the contents of some
document, and a document is read as the configuration that agrees with its contents and is at its default otherwise.
Unknown keys, in the document or in a section, make no difference, nor does it make one to list the first fields of a
section instead of naming them; and a number that is out of the range of its field is not made to fit it. -/
theorem read_fieldwise (f : Format) :
    (∀ c present kept, Contains c (fun s name => present s && kept s name) (part c present kept)) ∧
    (∀ c kept es, Contains c kept es → ∃ c', read f (.table es) = .ok c' ∧
      ∀ s : Schema.Section, ∀ g ∈ s.fields,
        g.get (s.get c') = if kept s g.name then g.get (s.get c) else g.get (s.get {})) ∧
    (∀ es es', Adds (Section.all.map Section.name) es es' →
      (read f (.table es')).toOption = (read f (.table es)).toOption) ∧
    (∀ es, (es.map Prod.fst).Nodup → ∀ (s : Schema.Section) (fs : List (String × Value)),
      es.lookup s.name = some (.table fs) →
        (∀ fs', Adds (s.fields.map Field.name) fs fs' →
          (read f (.table (setEntry s.name (.table fs') es))).toOption = (read f (.table es)).toOption) ∧
        ∀ items, items.length ≤ s.fields.length → fs.Perm ((s.fields.map Field.name).zip items) →
          (read f (.table (setEntry s.name (.list items) es))).toOption = (read f (.table es)).toOption) ∧
    ∀ es, IsDocument es → ∀ s : Schema.Section, ∀ g ∈ s.fields, ∀ b, bits? g.kind = some b → ∀ v,
      (given es s).lookup g.name = some v → (∀ n : Nat, n < wordCount b → v ≠ .integer n) →
        ∃ e, read f (.table es) = .error e :=
  ⟨contains_part, fun _ _ _ => read_of_contains, fun _ _ => read_adds,
    fun _ hkeys _ _ hfs => ⟨fun _ => read_adds_section hkeys hfs, fun _ => read_listed hkeys hfs⟩,
    fun _ h _ _ hg _ hb _ => read_eq_error h hg hb⟩

/-- A script and a port that are named or listed, an unknown key beside them, and a port that is too large. -/
theorem read_fieldwise_server :
    let c : Config := { server := { interpreter := "python", script := "main.py", port := 8080 } }
    let named : List (String × Value) := [("script", .text "main.py"), ("interpreter", .text "python")]
    (∃ c', read .json (.table (part c (· == .server) fun _ name => name == "port")) = .ok c' ∧
      ∀ s : Schema.Section, ∀ g ∈ s.fields, g.get (s.get c') =
        if (s == .server && g.name == "port") then g.get (s.get c) else g.get (s.get {})) ∧
    (read .toml (.table [("extra", .null), ("server", .table named)])).toOption =
      (read .toml (.table [("server", .table named)])).toOption ∧
    (read .toml (.table [("server", .table (("title", .flag true) :: named))])).toOption =
      (read .toml (.table [("server", .table named)])).toOption ∧
    (read .toml (.table [("server", .list [.text "python", .text "main.py"])])).toOption =
      (read .toml (.table [("server", .table named)])).toOption ∧
    ∃ e, read .json (.table [("server", .table [("port", .integer 65536)])]) = .error e := by
  intro c named
  have hkeys : (([("server", .table named)] : List (String × Value)).map Prod.fst).Nodup := by decide
  have hdocument : IsDocument [("server", .table [("port", .integer 65536)])] := by
    refine ⟨by decide, fun s v hv => ?_⟩
    have hmem := (lookup_eq_some_iff_mem (by decide)).1 hv
    obtain rfl : v = .table [("port", .integer 65536)] := (Prod.mk.inj (List.mem_singleton.1 hmem)).2
    exact .table (by decide)
  refine ⟨(read_fieldwise .json).2.1 _ _ _ ((read_fieldwise .json).1 _ _ _),
    (read_fieldwise .toml).2.2.1 _ _ ⟨by decide, [("extra", .null)], by decide, List.Perm.swap _ _ _⟩,
    ((read_fieldwise .toml).2.2.2.1 _ hkeys .server _ rfl).1 _
      ⟨by decide, [("title", .flag true)], by decide, (List.perm_append_singleton _ named).symm⟩,
    ((read_fieldwise .toml).2.2.2.1 _ hkeys .server _ rfl).2 _ (by decide) (List.Perm.swap _ _ _),
    (read_fieldwise .json).2.2.2.2 _ hdocument .server _ (List.getElem_mem (by decide : 3 < _)) 16 rfl
      (.integer 65536) rfl ?_⟩
  intro n hn heq
  have hvalue : (65536 : Int) = n := Value.integer.inj heq
  have hbound : n < 65536 := hn
  omega

end AppLauncher.Config.Strict
