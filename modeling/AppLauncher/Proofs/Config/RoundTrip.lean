import AppLauncher.Config.Strict
import AppLauncher.Proofs.Config.Layout
import AppLauncher.Proofs.Config.StringStyles
import AppLauncher.Proofs.Document.Toml.Integer
import AppLauncher.Proofs.Document.Toml.Lines

/-!
# A configuration read back as it was written

A configuration can be written exactly when its numbers of 64 bits fit into 63, and what was written is read back as
the same configuration (`toToml_roundTrip`).  The text is followed field by field and section by section to the
document that it spells (`writes_toToml`); the document is then read place by place.
-/

namespace AppLauncher.Config.Render

open AppLauncher.Document AppLauncher.Schema
open AppLauncher.Document.Toml hiding Section

/-! ### Values -/

/-- The value that a field of a kind is written as. -/
def kindValue : (k : Kind) → k.Carrier → Value
  | .text, s => .text s
  | .path, s => .text s
  | .flag, b => .flag b
  | .word16, n => .integer n.toNat
  | .word32, n => .integer n.toNat
  | .word64, n => .integer n.toNat
  | .action, a => .text a.name
  | .strategy, s => .text s.name

/-- Whether the format can hold what a field holds: only numbers of 64 bits may be too large. -/
def IsWritable : (k : Kind) → k.Carrier → Prop
  | .word64, n => n.toNat < wordCount 63
  | _, _ => True

private theorem stringText_head (cs : List Char) :
    ∃ q rest, stringText cs = q :: rest ∧ (q = '"' ∨ q = '\'') := by
  unfold stringText
  dsimp only
  cases styleOf cs with
  | basic => exact ⟨_, _, rfl, Or.inl rfl⟩
  | literal => exact ⟨_, _, rfl, Or.inr rfl⟩
  | multiBasic => exact ⟨_, _, rfl, Or.inl rfl⟩
  | multiLiteral => exact ⟨_, _, rfl, Or.inr rfl⟩

/-- A string at the end of a line is read as its text. -/
theorem valueText_string (s : String) : ValueText (stringText s.toList) (.text s) := by
  obtain ⟨q, r, hq, hquote⟩ := stringText_head s.toList
  constructor
  · intro rest
    rw [hq]
    rcases hquote with rfl | rfl <;> rfl
  · intro rest
    have hread := string?_stringText s.toList ('\n' :: rest) (by simp) (by simp)
    have hvalue : value? depthLimit (stringText s.toList ++ '\n' :: rest) =
        (string? (stringText s.toList ++ '\n' :: rest)).map fun p => (.text (String.ofList p.1), p.2) := by
      rw [hq]
      rcases hquote with rfl | rfl <;> rfl
    rw [hvalue, hread]
    simp

/-- A truth value at the end of a line is read as such. -/
theorem valueText_flag (b : Bool) :
    ValueText (if b then "true".toList else "false".toList) (.flag b) := by
  cases b <;> exact ⟨fun _ => rfl, fun _ => rfl⟩

/-- A number at the end of a line is read as such. -/
theorem valueText_number {n : Nat} (hn : n < wordCount 63) : ValueText (Text.decimal n) (.integer n) := by
  cases hd : Text.decimal n with
  | nil => exact absurd hd (Text.decimal_ne_nil n)
  | cons c cs =>
    have hc : c.isDigit = true := Text.isDigit_of_mem_decimal (n := n) (by simp [hd])
    have hne : ∀ d : Char, d.isDigit = false → c ≠ d := fun d => Text.isDigit_ne hc
    constructor
    · intro rest
      have h1 := hne ' ' (by decide)
      have h2 := hne '\t' (by decide)
      simp [skipSpace, isSpace, h1, h2]
    · -- a digit opens neither a list nor a table nor a string
      intro rest
      have hread := scalar?_decimal hn (r := rest)
      rw [hd] at hread
      have h1 := hne '[' (by decide)
      have h2 := hne '\x7b' (by decide)
      have h3 := hne '"' (by decide)
      have h4 := hne '\'' (by decide)
      have hlimit : depthLimit = 79 + 1 := rfl
      rw [hlimit, List.cons_append, value?]
      · exact hread
      all_goals
        intro _ heq
        first
          | exact h1 (List.cons.inj heq).1
          | exact h2 (List.cons.inj heq).1
          | exact h3 (List.cons.inj heq).1
          | exact h4 (List.cons.inj heq).1

theorem word16_lt (n : UInt16) : n.toNat < wordCount 63 :=
  Nat.lt_of_lt_of_le n.toNat_lt (by decide)

theorem word32_lt (n : UInt32) : n.toNat < wordCount 63 :=
  Nat.lt_of_lt_of_le n.toNat_lt (by decide)

private theorem numberText_of_lt {n : Nat} (h : n < wordCount 63) : numberText n = .ok (Text.decimal n) := by
  simp [numberText, h]

/-- An attempt to write succeeds exactly when what is written fits into the format, and then the text is as it
should be. -/
def Writes (fits : Prop) (attempt : Except RenderError (List Char)) (isRight : List Char → Prop) : Prop :=
  (fits ∧ ∃ t, attempt = .ok t ∧ isRight t) ∨ (¬ fits ∧ attempt = .error .numberTooLarge)

namespace Writes

variable {P P' : Prop} {x y : Except RenderError (List Char)} {Q Q' : List Char → Prop}

theorem congr (h : Writes P x Q) (hP : P ↔ P') (hQ : ∀ t, Q t → Q' t) : Writes P' x Q' := by
  rcases h with ⟨hp, t, ht, hq⟩ | ⟨hp, hx⟩
  · exact Or.inl ⟨hP.1 hp, t, ht, hQ t hq⟩
  · exact Or.inr ⟨fun h => hp (hP.2 h), hx⟩

theorem map (h : Writes P x Q) (f : List Char → List Char) : Writes P (x.map f) fun t => ∃ a, t = f a ∧ Q a := by
  rcases h with ⟨hp, t, rfl, hq⟩ | ⟨hp, rfl⟩
  · exact Or.inl ⟨hp, f t, rfl, t, rfl, hq⟩
  · exact Or.inr ⟨hp, rfl⟩

/-- Two texts one after the other: both have to fit. -/
theorem both (h : Writes P x Q) (h' : Writes P' y Q') (f : List Char → List Char → List Char) :
    Writes (P ∧ P') (do let a ← x; let b ← y; pure (f a b)) fun t => ∃ a b, t = f a b ∧ Q a ∧ Q' b := by
  rcases h with ⟨hp, a, rfl, hq⟩ | ⟨hp, rfl⟩
  · rcases h' with ⟨hp', b, rfl, hq'⟩ | ⟨hp', rfl⟩
    · exact Or.inl ⟨⟨hp, hp'⟩, f a b, rfl, a, b, rfl, hq, hq'⟩
    · exact Or.inr ⟨fun h => hp' h.2, rfl⟩
  · exact Or.inr ⟨fun h => hp h.1, rfl⟩

end Writes

/-- What a field holds is read back at the end of a line. -/
theorem writes_kindText (k : Kind) (x : k.Carrier) :
    Writes (IsWritable k x) (kindText k x) fun t => ValueText t (kindValue k x) := by
  cases k with
  | text => exact Or.inl ⟨trivial, _, rfl, valueText_string x⟩
  | path => exact Or.inl ⟨trivial, _, rfl, valueText_string x⟩
  | flag => exact Or.inl ⟨trivial, _, rfl, valueText_flag x⟩
  | word16 => exact Or.inl ⟨trivial, _, numberText_of_lt (word16_lt x), valueText_number (word16_lt x)⟩
  | word32 => exact Or.inl ⟨trivial, _, numberText_of_lt (word32_lt x), valueText_number (word32_lt x)⟩
  | word64 =>
    by_cases h : x.toNat < wordCount 63
    · exact Or.inl ⟨h, _, numberText_of_lt h, valueText_number h⟩
    · exact Or.inr ⟨h, by simp [kindText, numberText, h]⟩
  | action => exact Or.inl ⟨trivial, _, rfl, valueText_string x.name⟩
  | strategy => exact Or.inl ⟨trivial, _, rfl, valueText_string x.name⟩

/-! ### Fields -/

/-- The entries that fields are written as. -/
def fieldItems {S : Type} (s : S) (fs : List (Schema.Field S)) : Entries :=
  fs.map fun f => (f.name, .value (kindValue f.kind (f.get s)))

/-- The lines of fields put them into the table that is being filled. -/
theorem writes_fieldsText {S : Type} (s : S) (fs : List (Schema.Field S)) (hbare : ∀ f ∈ fs, IsBareName f.name)
    (hnames : (fs.map Schema.Field.name).Nodup) :
    Writes (∀ f ∈ fs, IsWritable f.kind (f.get s)) (fieldsText s fs) fun t =>
      ∀ root key entries, (∀ f ∈ fs, entries.lookup f.name = none) →
        Consumes (Draft.filling root key entries) t (Draft.filling root key (entries ++ fieldItems s fs)) := by
  induction fs with
  | nil =>
    refine Or.inl ⟨by simp, [], rfl, fun root key entries _ => ?_⟩
    rw [fieldItems, List.map_nil, List.append_nil]
    exact Consumes.refl _
  | cons f fs ih =>
    rw [List.map_cons, List.nodup_cons] at hnames
    have hline := (writes_kindText f.kind (f.get s)).map fun v => f.name.toList ++ " = ".toList ++ v ++ ['\n']
    have hrest := ih (fun g hg => hbare g (by simp [hg])) hnames.2
    refine (hline.both hrest (· ++ ·)).congr (by simp) ?_
    rintro t ⟨_, lines, rfl, ⟨v, rfl, hvalue⟩, hreads⟩ root key entries hfresh
    have hput := Draft.put_filling root key (kindValue f.kind (f.get s)) (hfresh f (by simp))
    have hnext := hreads root key (entries ++ [(f.name, .value (kindValue f.kind (f.get s)))]) (by
      intro g hg
      have hne : g.name ≠ f.name := fun he => hnames.1 (List.mem_map.2 ⟨g, hg, he⟩)
      simp [List.lookup_append, hfresh g (by simp [hg]), hne])
    rw [List.append_assoc] at hnext
    exact (consumes_keyLine (hbare f (by simp)) hvalue hput).trans hnext

/-! ### Sections -/

/-- The entries that a section is written as. -/
def sectionItems (c : Config) (s : Section) : Entries := fieldItems (s.get c) s.fields

theorem isBareName_section (s : Section) : IsBareName s.name := by
  cases s <;> exact ⟨by decide, by decide⟩

theorem isBareName_field (s : Section) : ∀ f ∈ s.fields, IsBareName f.name := by
  have hall : (s.fields.all fun f => f.name.toList != [] && f.name.toList.all isBare) = true := by
    cases s <;> decide
  intro f hf
  simpa [IsBareName] using List.all_eq_true.1 hall f hf

/-- Whether the format can hold all of a section. -/
def SectionFits (c : Config) (s : Section) : Prop := ∀ f ∈ s.fields, IsWritable f.kind (f.get (s.get c))

/-- The text of a section makes its table, after the table before it is finished. -/
theorem writes_sectionText (c : Config) (s : Section) :
    Writes (SectionFits c s) (sectionText c s) fun t => t.head? = some '[' ∧
      ∀ d root, d.close = some root → root.lookup s.name = none →
        ∃ d', Consumes d t d' ∧ d'.close = some (root ++ [(s.name, .table .header (sectionItems c s))]) := by
  have hfields := writes_fieldsText (s.get c) s.fields (isBareName_field s) s.layout.names_nodup
  refine (hfields.map fun lines => '[' :: s.name.toList ++ [']', '\n'] ++ lines).congr Iff.rfl ?_
  rintro t ⟨lines, rfl, hreads⟩
  refine ⟨rfl, fun d root hd hfresh => ?_⟩
  refine ⟨Draft.filling root s.name (sectionItems c s), ?_, Draft.close_filling hfresh⟩
  exact (consumes_header (isBareName_section s) (Draft.openTable_of_close hd hfresh)).trans
    (hreads root s.name [] fun _ _ => rfl)

/-- The text of sections makes their tables one after the other. -/
theorem writes_sectionsText (c : Config) (ss : List Section) (hnames : (ss.map Section.name).Nodup) :
    Writes (∀ s ∈ ss, SectionFits c s) (sectionsText c ss) fun t => (∀ x ∈ t.head?, x = '[') ∧
      ∀ d root, d.close = some root → (∀ s ∈ ss, root.lookup s.name = none) →
        ∃ d', Consumes d t d' ∧
          d'.close = some (root ++ ss.map fun s => (s.name, .table .header (sectionItems c s))) := by
  induction ss with
  | nil => exact Or.inl ⟨by simp, [], rfl, by simp, fun d root hd _ => ⟨d, Consumes.refl d, by simpa using hd⟩⟩
  | cons s rest ih =>
    rw [List.map_cons, List.nodup_cons] at hnames
    cases rest with
    | nil =>
      refine (writes_sectionText c s).congr (by simp) ?_
      rintro t ⟨hhead, ht⟩
      exact ⟨by simp [hhead], fun d root hd hfresh => ht d root hd (hfresh s (by simp))⟩
    | cons s' rest =>
      refine ((writes_sectionText c s).both (ih hnames.2) fun first others => first ++ '\n' :: others).congr
        (by simp) ?_
      rintro t ⟨first, others, rfl, ⟨hhead, hfirst⟩, -, hothers⟩
      refine ⟨by simp [hhead], fun d root hd hfresh => ?_⟩
      -- the first section is closed by the header of the next, after a blank line
      obtain ⟨d₁, h₁, hd₁⟩ := hfirst d root hd (hfresh s (by simp))
      obtain ⟨d₂, h₂, hd₂⟩ := hothers d₁ _ hd₁ (by
        intro x hx
        have hne : x.name ≠ s.name := fun he => hnames.1 (List.mem_map.2 ⟨x, hx, he⟩)
        simp [List.lookup_append, hfresh x (List.mem_cons_of_mem s hx), hne])
      rw [List.append_assoc] at hd₂
      exact ⟨d₂, h₁.trans h₂.blank, hd₂⟩

/-! ### The document -/

/-- The document that a configuration is written as. -/
def document (c : Config) : Value :=
  .table (Section.all.map fun s =>
    (s.name, .table (s.fields.map fun f => (f.name, kindValue f.kind (f.get (s.get c))))))

private theorem finish_sectionItems (c : Config) :
    finishEntries ([] ++ Section.all.map fun s => (s.name, .table .header (sectionItems c s))) =
      Section.all.map fun s =>
        (s.name, .table (s.fields.map fun f => (f.name, kindValue f.kind (f.get (s.get c))))) := by
  simp only [List.nil_append, finishEntries_eq_map, List.map_map, sectionItems, fieldItems, Function.comp_def,
    Item.finish]

/-- What was written spells the document of the configuration. -/
theorem writes_toToml (c : Config) :
    Writes (∀ s, SectionFits c s) (sectionsText c Section.all) fun t => read? t = some (document c) := by
  refine (writes_sectionsText c Section.all configLayout.names_nodup).congr ?_ ?_
  · exact ⟨fun h s => h s s.mem_all, fun h s _ => h s⟩
  · rintro t ⟨hhead, ht⟩
    obtain ⟨d, hreads, hd⟩ := ht Draft.empty [] rfl fun _ _ => rfl
    have hmark : t.head? ≠ some '\ufeff' := fun he => absurd (hhead _ he) (by decide)
    rw [read?_of_consumes hreads hmark, Draft.finish, hd, Option.map_some, finish_sectionItems]
    rfl

/-- The text of a configuration spells its document. -/
theorem read?_of_toToml {c : Config} {t : String} (h : c.toToml = .ok t) : read? t.toList = some (document c) := by
  rcases writes_toToml c with ⟨-, cs, hcs, hread⟩ | ⟨-, hno⟩
  · rw [Config.toToml, hcs] at h
    obtain rfl := Except.ok.inj h
    simpa using hread
  · rw [Config.toToml, hno] at h
    cases h

/-! ### Reading back -/

private theorem readNumber_of_lt {bound n : Nat} (h : n < bound) (expected : String) :
    Strict.readNumber bound expected (.integer n) = .ok n := by
  have : (0 : Int) ≤ n ∧ (n : Int) < bound := by omega
  simp [Strict.readNumber, this]

/-- What a field was written as is read strictly as what it held, in either format. -/
theorem readKind_kindValue (f : Strict.Format) (k : Kind) (x : k.Carrier) :
    Strict.readKind f k (kindValue k x) = .ok x := by
  cases k with
  | text => rfl
  | path => rfl
  | flag => rfl
  | word16 =>
    have h : x.toNat < wordCount 16 := Nat.lt_of_lt_of_le x.toNat_lt (by decide)
    rw [kindValue, Strict.readKind, readNumber_of_lt h, Except.map, Nat.toUInt16, UInt16.ofNat_toNat]
  | word32 =>
    have h : x.toNat < wordCount 32 := Nat.lt_of_lt_of_le x.toNat_lt (by decide)
    rw [kindValue, Strict.readKind, readNumber_of_lt h, Except.map, Nat.toUInt32, UInt32.ofNat_toNat]
  | word64 =>
    have h : x.toNat < wordCount 64 := Nat.lt_of_lt_of_le x.toNat_lt (by decide)
    rw [kindValue, Strict.readKind, readNumber_of_lt h, Except.map, Nat.toUInt64, UInt64.ofNat_toNat]
  | action => cases x <;> rfl
  | strategy => cases x <;> rfl

/-- The document of a configuration is read as that configuration. -/
theorem read_document (c : Config) : Strict.read .toml (document c) = .ok c := by
  have hsection : ∀ s : Schema.Section, Strict.readSection .toml s
      (.table (s.fields.map fun f => (f.name, kindValue f.kind (f.get (s.get c))))) = .ok (s.get c) := by
    intro s
    exact s.layout.readEntries_all (fun f => Strict.readKind .toml f.kind) fun f _ =>
      readKind_kindValue .toml f.kind (f.get (s.get c))
  exact configLayout.readEntries_all (Strict.readSection .toml) fun s _ => hsection s

/-- Only three numbers can be too large to be written. -/
theorem forall_sectionFits_iff (c : Config) :
    (∀ s, SectionFits c s) ↔ c.readiness.delayMillis.toNat < wordCount 63 ∧
      c.readiness.pollIntervalMillis.toNat < wordCount 63 ∧ c.readiness.timeoutSeconds.toNat < wordCount 63 := by
  constructor
  · intro h
    simpa [SectionFits, Section.fields, IsWritable, Section.get] using h .readiness
  · intro h s
    cases s <;> simp [SectionFits, Section.fields, IsWritable, Section.get, h]

/-- A configuration can be written exactly when its three large numbers fit into 63 bits, whatever its texts are, and
what was written is a document that is read as the same configuration. -/
theorem toToml_roundTrip (c : Config) :
    ((∃ t, c.toToml = .ok t) ↔ c.readiness.delayMillis.toNat < wordCount 63 ∧
      c.readiness.pollIntervalMillis.toNat < wordCount 63 ∧ c.readiness.timeoutSeconds.toNat < wordCount 63) ∧
    ∀ t, c.toToml = .ok t → ∃ v, read? t.toList = some v ∧ Strict.read .toml v = .ok c := by
  rw [← forall_sectionFits_iff]
  rcases writes_toToml c with ⟨hfits, t, ht, hread⟩ | ⟨hfits, ht⟩
  · have hc : c.toToml = .ok (String.ofList t) := by rw [Config.toToml, ht]; rfl
    refine ⟨⟨fun _ => hfits, fun _ => ⟨_, hc⟩⟩, fun t' ht' => ⟨document c, ?_, read_document c⟩⟩
    rw [hc] at ht'
    obtain rfl := Except.ok.inj ht'
    simpa using hread
  · have hc : c.toToml = .error .numberTooLarge := by rw [Config.toToml, ht]; rfl
    simp [hc, hfits]

/-- Quotes of both kinds in runs, a backslash, control characters and line breaks come back as they were. -/
theorem toToml_roundTrip_wild :
    let c : Config := { server := { script := "\n'''\t\"" }, window := { title := "\"\"\"''\\\n\x01\r'''" } }
    ∃ t, c.toToml = .ok t ∧ ∃ v, read? t.toList = some v ∧ Strict.read .toml v = .ok c := by
  intro c
  obtain ⟨t, ht⟩ := (toToml_roundTrip c).1.2 ⟨by decide, by decide, by decide⟩
  exact ⟨t, ht, (toToml_roundTrip c).2 t ht⟩

end AppLauncher.Config.Render
