import AppLauncher.Proofs.Config.Layers
import AppLauncher.Proofs.Config.Fieldwise
import AppLauncher.Proofs.Document.Toml.Distinct
import AppLauncher.Proofs.Text.Utf8

/-!
# What is read strictly is loaded alike

A document with plain keys that is read strictly is loaded from a file as the same configuration (`fromFiles_of_read`).
The one reader takes the document as it stands; the other one reads a tree that was made of it entry by entry, and
turns scalars into what is asked for.  Since no key stands twice, the tree has the entries of the document in their
order, so the readers are compared slot by slot: whatever the first one takes for a slot, the second one takes for it
too (`Refines`).
-/

namespace AppLauncher.Schema

/-! ### Slots compared -/

variable {V V' ε ε' R : Type} {ok : V → Prop} {node : V → V'}

/-- Whatever is stored in the first slot is stored in the second one alike, from what `node` makes of it. -/
structure Refines (ok : V → Prop) (node : V → V') (s : Slot V ε R) (t : Slot V' ε' R) : Prop where
  name : t.name = s.name
  store : ∀ v, ok v → ∀ r r', s.store v r = .ok r' → t.store (node v) r = .ok r'

private theorem find?_of_forall₂ {slots : List (Slot V ε R)} {slots' : List (Slot V' ε' R)}
    (h : List.Forall₂ (Refines ok node) slots slots') (k : String) :
    (slots.find? (fun s => s.name == k) = none ∧ slots'.find? (fun s => s.name == k) = none) ∨
    ∃ s t, slots.find? (fun s => s.name == k) = some s ∧ slots'.find? (fun s => s.name == k) = some t ∧
      Refines ok node s t := by
  induction h with
  | nil => exact Or.inl ⟨rfl, rfl⟩
  | @cons s t slots slots' hst _ ih =>
    rw [List.find?_cons, List.find?_cons, hst.name]
    cases hk : s.name == k with
    | true => exact Or.inr ⟨s, t, rfl, rfl, hst⟩
    | false => exact ih

/-- Entries that are read into slots are read alike into slots that refine them. -/
theorem readEntries_of_refines {slots : List (Slot V ε R)} {slots' : List (Slot V' ε' R)}
    (h : List.Forall₂ (Refines ok node) slots slots') {entries : List (String × V)} (hok : ∀ e ∈ entries, ok e.2)
    {r r' : R} (hread : readEntries slots entries r = .ok r') :
    readEntries slots' (entries.map fun e => (e.1, node e.2)) r = .ok r' := by
  induction entries generalizing r with
  | nil =>
    obtain rfl := Except.ok.inj hread
    rfl
  | cons e entries ih =>
    obtain ⟨k, v⟩ := e
    have hrest : ∀ e ∈ entries, ok e.2 := fun e he => hok e (List.mem_cons_of_mem _ he)
    rw [List.map_cons, readEntries]
    rw [readEntries] at hread
    rcases find?_of_forall₂ h k with ⟨hs, ht⟩ | ⟨s, t, hs, ht, hst⟩
    · rw [hs] at hread
      rw [ht]
      exact ih hrest hread
    · rw [hs] at hread
      rw [ht]
      dsimp only at hread ⊢
      cases hstore : s.store v r with
      | error e =>
        rw [hstore] at hread
        cases hread
      | ok r₁ =>
        rw [hstore] at hread
        rw [hst.store v (hok _ List.mem_cons_self) r r₁ hstore]
        exact ih hrest hread

/-- Items that are read into slots are read alike into slots that refine them. -/
theorem readItems_of_refines {slots : List (Slot V ε R)} {slots' : List (Slot V' ε' R)}
    (h : List.Forall₂ (Refines ok node) slots slots') {items : List V} (hok : ∀ v ∈ items, ok v)
    {r r' : R} (hread : readItems slots items r = .ok r') : readItems slots' (items.map node) r = .ok r' := by
  induction h generalizing items r with
  | nil =>
    obtain rfl := Except.ok.inj hread
    rfl
  | @cons s t slots slots' hst _ ih =>
    cases items with
    | nil =>
      obtain rfl := Except.ok.inj hread
      rfl
    | cons v items =>
      rw [List.map_cons, readItems]
      rw [readItems] at hread
      cases hstore : s.store v r with
      | error e =>
        rw [hstore] at hread
        cases hread
      | ok r₁ =>
        rw [hstore] at hread
        rw [hst.store v (hok v List.mem_cons_self) r r₁ hstore]
        exact ih (fun w hw => hok w (List.mem_cons_of_mem _ hw)) hread

end AppLauncher.Schema

namespace AppLauncher.Config.Lenient

open AppLauncher.Document AppLauncher.Schema AppLauncher.Config.Layer

variable {R : Type} {ok : Value → Prop} {node : Value → Node}

/-- A slot may say more in its errors. -/
private theorem refines_mapError {s : Slot Value Strict.ReadError R} {t : Slot Node ReadError R}
    (h : Refines ok node s t) (g : ReadError → ReadError) :
    Refines ok node s ⟨t.name, fun v r => (t.store v r).mapError g⟩ where
  name := h.name
  store v hv r r' hstore := by
    dsimp only
    rw [h.store v hv r r' hstore]
    rfl

private theorem forall₂_named {slots : List (Slot Value Strict.ReadError R)} {slots' : List (Slot Node ReadError R)}
    (h : List.Forall₂ (Refines ok node) slots slots') : List.Forall₂ (Refines ok node) slots (slots'.map named) :=
  List.forall₂_map_right_iff.2 (h.imp fun _ _ hst => refines_mapError hst _)

private theorem forall₂_numbered {slots : List (Slot Value Strict.ReadError R)}
    {slots' : List (Slot Node ReadError R)} (h : List.Forall₂ (Refines ok node) slots slots') (i : Nat) :
    List.Forall₂ (Refines ok node) slots (numbered i slots') := by
  induction h generalizing i with
  | nil => exact .nil
  | cons hst _ ih => exact .cons (refines_mapError hst _) (ih (i + 1))

/-! ### Fields -/

/-- The entries of a table make a tree with the same keys in the same order. -/
private theorem putAll_ofEntries {es : List (String × Value)} (origin : String) (hplain : ∀ e ∈ es, IsPlainKey e.1)
    (hkeys : (es.map Prod.fst).Nodup) : Node.emptyTable.putAll (ofEntries origin es) =
      .table none (es.map fun e => (e.1, Node.laid none (ofValue origin e.2))) := by
  have hplain' : ∀ e ∈ ofEntries origin es, IsPlainKey e.1 := by
    rw [ofEntries_eq_map]
    intro e he
    obtain ⟨e', he', rfl⟩ := List.mem_map.1 he
    exact hplain e' he'
  have hkeys' : ((ofEntries origin es).map Prod.fst).Nodup := by
    rw [ofEntries_eq_map, List.map_map]
    exact hkeys
  rw [Node.emptyTable, Node.putAll_of_new hplain' hkeys' (by simp), List.nil_append, ofEntries_eq_map, List.map_map]
  rfl

/-- A whole number in the range of its field is the number that it was. -/
private theorem readWord_of_strict {bits n : Nat} {expected origin : String} {v : Value}
    (h : Strict.readNumber (wordCount bits) expected v = .ok n) :
    readWord bits (ofValue origin v) = .ok n ∧ readWord bits (Node.laid none (ofValue origin v)) = .ok n := by
  obtain ⟨hn, rfl⟩ := Strict.eq_of_readNumber h
  have hread : readWord bits (.scalar (some origin) (.integer n)) = .ok n := by
    have hpos : (0 : Int) ≤ n := by omega
    simp [readWord, readUnsigned, hpos, hn, bind, Except.bind, pure, Except.pure]
  exact ⟨hread, hread⟩

/-- A choice is made by its name, or by a table with the name as its only key. -/
private theorem readChoice_of_strict {α : Type} {choice origin : String} {names : List (String × α)}
    (hnames : ∀ e ∈ names, IsPlainKey e.1) {v : Value} {a : α} (h : Strict.readChoice .toml names v = .ok a) :
    readChoice choice names (ofValue origin v) = .ok a ∧
      readChoice choice names (Node.laid none (ofValue origin v)) = .ok a := by
  have hnamed : ∀ {name a'}, Strict.named names name = .ok a' →
      IsPlainKey name ∧ names.lookup (Text.lowerString name) = some a' := by
    intro name a' hname
    rw [Strict.named] at hname
    split at hname
    · rename_i hlookup
      obtain rfl := Except.ok.inj hname
      have hplain : IsPlainKey name := by
        obtain ⟨before, after, rfl, -⟩ := List.lookup_eq_some_iff.1 hlookup
        exact hnames _ (List.mem_append_right _ List.mem_cons_self)
      exact ⟨hplain, by rw [hplain.lowerString_eq]; exact hlookup⟩
    · cases hname
  unfold Strict.readChoice at h
  split at h
  · rename_i s
    have hlookup := (hnamed h).2
    constructor <;> simp [ofValue, Node.laid, readChoice, hlookup]
  · rename_i k w
    cases hk : Strict.named names k with
    | error e =>
      rw [hk] at h
      cases h
    | ok a' =>
      rw [hk] at h
      obtain ⟨hplain, hlookup⟩ := hnamed hk
      obtain rfl : a' = a := by
        cases hw : Strict.saysNothing .toml w with
        | error e => simp [hw, bind, Except.bind] at h
        | ok u => simpa [hw, bind, Except.bind, pure, Except.pure] using h
      constructor
      · simp [ofValue, ofEntries, readChoice, hlookup]
      · rw [ofValue, Node.laid, Option.getD_none, putAll_ofEntries origin (by simpa using hplain) (by simp)]
        simp [readChoice, hlookup]
  · cases h
  · cases h

private theorem map_eq_ok_of_imp {ε' α β : Type} {f : α → β} {x : Except Strict.ReadError α} {y z : Except ε' α}
    (hxy : ∀ a, x = .ok a → y = .ok a ∧ z = .ok a) {b : β} (h : x.map f = .ok b) :
    y.map f = .ok b ∧ z.map f = .ok b := by
  cases x with
  | error e => cases h
  | ok a =>
    obtain ⟨rfl, rfl⟩ := hxy a rfl
    obtain rfl := Except.ok.inj h
    exact ⟨rfl, rfl⟩

/-- What is read strictly for a field is read from its tree too, whether the tree was merged or stands in a list. -/
theorem readKind_of_strict {k : Kind} {v : Value} {x : k.Carrier} (origin : String)
    (h : Strict.readKind .toml k v = .ok x) :
    readKind k (ofValue origin v) = .ok x ∧ readKind k (Node.laid none (ofValue origin v)) = .ok x := by
  cases k with
  | text => cases v <;> cases h; exact ⟨rfl, rfl⟩
  | path => cases v <;> cases h; exact ⟨rfl, rfl⟩
  | flag => cases v <;> cases h; exact ⟨rfl, rfl⟩
  | word16 => exact map_eq_ok_of_imp (fun _ => readWord_of_strict) h
  | word32 => exact map_eq_ok_of_imp (fun _ => readWord_of_strict) h
  | word64 => exact map_eq_ok_of_imp (fun _ => readWord_of_strict) h
  | action => exact readChoice_of_strict (by simp [FailureAction.names, IsPlainKey]; decide) h
  | strategy => exact readChoice_of_strict (by simp [ReadinessStrategy.names, IsPlainKey]; decide) h

/-! ### Sections -/

/-- A value with plain keys at every depth and without dates. -/
structure IsPlainValue (v : Value) : Prop where
  keys : ∀ es, Value.Inside (.table es) v → ∀ e ∈ es, IsPlainKey e.1
  noMoment : ∀ m, ¬ Value.Inside (.moment m) v

private theorem IsPlainValue.entry {es : List (String × Value)} (h : IsPlainValue (.table es)) {e : String × Value}
    (he : e ∈ es) : IsPlainValue e.2 where
  keys es' hes' := h.keys es' (.entry he hes')
  noMoment m hm := h.noMoment m (.entry he hm)

theorem isPlainValue_of_isFlat {v : Value} (hflat : v.isFlat = true) (hno : ∀ m, v ≠ .moment m) :
    IsPlainValue v where
  keys es hes := by cases hes <;> cases hflat
  noMoment m hm := by
    cases hm with
    | here => exact hno m rfl
    | item => cases hflat
    | entry => cases hflat

theorem isPlainValue_list {items : List Value} (h : ∀ v ∈ items, IsPlainValue v) : IsPlainValue (.list items) where
  keys es hes := by
    cases hes with
    | item hv hin => exact (h _ hv).keys es hin
  noMoment m hm := by
    cases hm with
    | item hv hin => exact (h _ hv).noMoment m hin

theorem isPlainValue_table {es : List (String × Value)} (h : ∀ e ∈ es, IsPlainKey e.1 ∧ IsPlainValue e.2) :
    IsPlainValue (.table es) where
  keys es' hes' := by
    cases hes' with
    | here => exact fun e he => (h e he).1
    | entry he hin => exact (h _ he).2.keys es' hin
  noMoment m hm := by
    cases hm with
    | entry he hin => exact (h _ he).2.noMoment m hin

private theorem forall₂_fields (s : Section) {node : Value → Node}
    (h : ∀ {k : Kind} {v : Value} {x : k.Carrier}, Strict.readKind .toml k v = .ok x → readKind k (node v) = .ok x) :
    List.Forall₂ (Refines (fun _ => True) node) (s.fields.map (Field.slot (Strict.readKind .toml)))
      (s.fields.map (Field.slot readKind)) := by
  refine List.forall₂_map_left_iff.2 (List.forall₂_map_right_iff.2 (List.forall₂_same.2 fun g _ => ⟨rfl, ?_⟩))
  intro v _ r r' hstore
  cases hv : Strict.readKind .toml g.kind v with
  | error e => simp [Field.slot, hv, Except.map] at hstore
  | ok x =>
    simp only [Field.slot, hv, Except.map, Except.ok.injEq] at hstore
    simp only [Field.slot, h hv, Except.map, hstore]

/-- A section that is read strictly is read from its merged tree as the same settings. -/
theorem readSection_of_strict {s : Section} {v : Value} {x : s.Settings} (origin : String) (hplain : IsPlainValue v)
    (hkeys : v.Distinct) (h : Strict.readSection .toml s v = .ok x) :
    readSection s (Node.laid none (ofValue origin v)) = .ok x := by
  cases v with
  | table es =>
    rw [ofValue, Node.laid, Option.getD_none, putAll_ofEntries origin (hplain.keys es .here) (hkeys es .here)]
    have hslots := forall₂_fields s fun hv => (readKind_of_strict origin hv).2
    exact readEntries_of_refines (forall₂_named hslots) (fun _ _ => trivial) h
  | list items =>
    have hslots := forall₂_fields s fun hv => (readKind_of_strict origin hv).1
    have hnode : Node.laid none (ofValue origin (.list items)) = .list (some origin) (items.map (ofValue origin)) := by
      rw [ofValue, ofItems_eq_map]
      rfl
    rw [hnode]
    cases hitems : readItems (s.fields.map (Field.slot (Strict.readKind .toml))) items s.fallback with
    | error e => simp [Strict.readSection, Strict.readRecord, hitems, bind, Except.bind] at h
    | ok y =>
      obtain rfl : y = x := by
        simpa [Strict.readSection, Strict.readRecord, hitems, bind, Except.bind] using h
      exact readItems_of_refines (forall₂_numbered hslots 0) (fun _ _ => trivial) hitems
  | moment m => exact absurd .here (hplain.noMoment m)
  | _ => cases h

/-- A document that is read strictly is read from its merged tree as the same configuration. -/
theorem read_merge_of_strict {es : List (String × Value)} {c : Config} (origin : String)
    (hplain : IsPlainValue (.table es)) (hkeys : (Value.table es).Distinct)
    (h : Strict.read .toml (.table es) = .ok c) : read (merge [(origin, .table es)]) = .ok c := by
  have hslots : List.Forall₂ (Refines (fun v => IsPlainValue v ∧ v.Distinct) fun v => Node.laid none (ofValue origin v))
      (Section.all.map (Section.slot (Strict.readSection .toml))) (Section.all.map (Section.slot readSection)) := by
    refine List.forall₂_map_left_iff.2 (List.forall₂_map_right_iff.2 (List.forall₂_same.2 fun s _ => ⟨rfl, ?_⟩))
    rintro v ⟨hv, hv'⟩ r r' hstore
    cases hread : Strict.readSection .toml s v with
    | error e => simp [Section.slot, hread, Except.map] at hstore
    | ok x =>
      simp only [Section.slot, hread, Except.map, Except.ok.injEq] at hstore
      simp only [Section.slot, readSection_of_strict origin hv hv' hread, Except.map, hstore]
  have hmerge : merge [(origin, .table es)] =
      .table none (es.map fun e => (e.1, Node.laid none (ofValue origin e.2))) := by
    rw [merge_eq_putAll (by simpa [rows] using hplain.keys es .here), List.flatMap_cons, List.flatMap_nil,
      List.append_nil, rows, putAll_ofEntries origin (hplain.keys es .here) (hkeys es .here)]
  rw [hmerge]
  exact readEntries_of_refines (forall₂_named hslots) (fun e he => ⟨hplain.entry he, hkeys.entry he⟩) h

end AppLauncher.Config.Lenient

namespace AppLauncher.Config.Load

open AppLauncher.Document AppLauncher.Schema AppLauncher.Storage AppLauncher.Config.Layer AppLauncher.Config.Lenient

/-! ### Files -/

/-- The only layer of a base file without others beside it. -/
theorem layers_single {d : Disk} {base path t : String} {v : Value} (hpath : findFile d base = .ok path)
    (hdata : d.read path = .ok (Text.Utf8.ofString t))
    (hlocal : findFile d (base ++ ".local") = .error (.notFound (base ++ ".local")))
    (hv : Toml.read? t.toList = some v) : layers d base none = .ok [(relative d path, v)] := by
  have hdecoded : (d.read path).toOption.bind Text.Utf8.decode? = some t.toList := by
    rw [hdata]
    exact Text.Utf8.decode?_ofString t
  have hfirst := readLayer_eq_ok hpath rfl hdecoded hv
  have hthird := readOptional_eq_nil hlocal
  unfold layers
  simp only [hfirst, hthird]
  rfl

private theorem isPlainValue_kindValue (k : Kind) (x : k.Carrier) : IsPlainValue (Render.kindValue k x) := by
  cases k <;> exact isPlainValue_of_isFlat rfl (by rintro m ⟨⟩)

/-- What a configuration is written as has plain keys and no dates. -/
theorem isPlainValue_document (c : Config) : IsPlainValue (Render.document c) := by
  refine isPlainValue_table fun e he => ?_
  obtain ⟨s, -, rfl⟩ := List.mem_map.1 he
  refine ⟨isPlainKey_section s, isPlainValue_table fun e he => ?_⟩
  obtain ⟨g, hg, rfl⟩ := List.mem_map.1 he
  refine ⟨isPlainKey_field s g hg, ?_⟩
  exact isPlainValue_kindValue g.kind (g.get (s.get c))

/-- A configuration is loaded from a single file as it is read from it strictly, if its text has plain keys and no
dates: however its sections are written and whatever else stands in it.  So what a configuration is written as is loaded
as that configuration. -/
theorem fromFiles_of_read {d : Disk} {base path t : String} (hpath : findFile d base = .ok path)
    (hdata : d.read path = .ok (Text.Utf8.ofString t))
    (hlocal : findFile d (base ++ ".local") = .error (.notFound (base ++ ".local"))) :
    (∀ v c, Toml.read? t.toList = some v → IsPlainValue v → Strict.read .toml v = .ok c →
      fromFiles d base none = .ok c) ∧
    ∀ c, c.toToml = .ok t → fromFiles d base none = .ok c := by
  have hread : ∀ v c, Toml.read? t.toList = some v → IsPlainValue v → Strict.read .toml v = .ok c →
      fromFiles d base none = .ok c := by
    intro v c hv hplain hc
    obtain ⟨⟨es, rfl⟩, hkeys⟩ := Toml.distinct_of_read? hv
    rw [fromFiles_eq_ok_iff (layers_single hpath hdata hlocal hv)]
    exact read_merge_of_strict _ hplain hkeys hc
  exact ⟨hread, fun c hc => hread _ c (Render.read?_of_toToml hc) (isPlainValue_document c) (Render.read_document c)⟩

/-! ### A file with sections of every form -/

private def mixedText : String :=
  "server = [\"py\", \"a\"]\nwindow.title = \"T\"\ncache.on_other.skip = []\nextra.key = true\n"

private def mixedDocument : Value := .table [
  ("server", .list [.text "py", .text "a"]),
  ("window", .table [("title", .text "T")]),
  ("cache", .table [("on_other", .table [("skip", .list [])])]),
  ("extra", .table [("key", .flag true)])]

private theorem read?_mixedText : Toml.read? mixedText.toList = some mixedDocument := by
  have hserver : Toml.ValueText "[\"py\", \"a\"]".toList (.list [.text "py", .text "a"]) :=
    ⟨fun _ => rfl, fun _ => rfl⟩
  have htitle : Toml.ValueText "\"T\"".toList (.text "T") := ⟨fun _ => rfl, fun _ => rfl⟩
  have hskip : Toml.ValueText "[]".toList (.list []) := ⟨fun _ => rfl, fun _ => rfl⟩
  have hflag : Toml.ValueText "true".toList (.flag true) := ⟨fun _ => rfl, fun _ => rfl⟩
  have hfirst : Toml.Consumes .empty _ _ := Toml.consumes_dotted [] "server" (by decide) (by decide) hserver rfl
  have hreads := hfirst.trans (Toml.consumes_dotted ["window"] "title" (by decide) (by decide) htitle rfl)
    |>.trans (Toml.consumes_dotted ["cache", "on_other"] "skip" (by decide) (by decide) hskip rfl)
    |>.trans (Toml.consumes_dotted ["extra"] "key" (by decide) (by decide) hflag rfl)
  exact Toml.read?_of_consumes hreads (by decide)

private def mixedConfig : Config :=
  { server := { interpreter := "py", script := "a" }, window := { title := "T" }, cache := { onOther := .skip } }

private theorem read_mixedDocument : Strict.read .toml mixedDocument = .ok mixedConfig := rfl

private def mixedDisk : Disk := ⟨.directory [("a.toml", .file (Text.Utf8.ofString mixedText) false 0)], []⟩

private theorem isPlainValue_mixedDocument : IsPlainValue mixedDocument := by
  have htext : ∀ s, IsPlainValue (.text s) := fun s => isPlainValue_of_isFlat rfl (by rintro m ⟨⟩)
  have hflag : IsPlainValue (.flag true) := isPlainValue_of_isFlat rfl (by rintro m ⟨⟩)
  have hkey : ∀ {k : String} {v : Value}, IsPlainKey k → IsPlainValue v → IsPlainValue (.table [(k, v)]) :=
    fun hk hv => isPlainValue_table (by simpa using ⟨hk, hv⟩)
  have hserver : IsPlainValue (.list [.text "py", .text "a"]) := isPlainValue_list (by simp [htext])
  have hwindow := hkey (k := "title") ⟨by decide, by decide⟩ (htext "T")
  have hempty : IsPlainValue (.list []) := isPlainValue_list (by simp)
  have hcache := hkey (k := "on_other") ⟨by decide, by decide⟩ (hkey (k := "skip") ⟨by decide, by decide⟩ hempty)
  have hextra := hkey (k := "key") ⟨by decide, by decide⟩ hflag
  refine isPlainValue_table ?_
  simp only [List.forall_mem_cons, List.not_mem_nil, false_implies, implies_true, and_true]
  exact ⟨⟨⟨by decide, by decide⟩, hserver⟩, ⟨⟨by decide, by decide⟩, hwindow⟩, ⟨⟨by decide, by decide⟩, hcache⟩,
    ⟨by decide, by decide⟩, hextra⟩

/-- A list of the first fields, dotted keys, a choice that is a table, and a section that is not known. -/
theorem fromFiles_of_read_mixed : fromFiles mixedDisk "a" none = .ok mixedConfig := by
  have hbase : withExtension (absolute mixedDisk "a") = "/a.toml" := by decide +kernel
  have hpath : findFile mixedDisk "a" = .ok "/a.toml" :=
    findFile_eq_ok hbase (by decide +kernel) (by decide +kernel)
  have hdata : mixedDisk.read "/a.toml" = .ok (Text.Utf8.ofString mixedText) := by decide +kernel
  have hlocal : findFile mixedDisk ("a" ++ ".local") = .error (.notFound ("a" ++ ".local")) :=
    findFile_eq_notFound (by decide +kernel) (by decide +kernel)
  exact (fromFiles_of_read hpath hdata hlocal).1 _ _ read?_mixedText isPlainValue_mixedDocument read_mixedDocument

end AppLauncher.Config.Load
