import AppLauncher.Document.Toml.Reader

/-!
# Lines read one after the other

A text that takes a draft to another whatever follows it (`Consumes`), so that texts can be read piece by piece:
a line with a key of bare names and a value, a header with a bare name, and a blank line.  How many lines the reader
may still take is part of `Consumes` and shows nowhere else; a text that takes the empty draft to some draft is a
document (`read?_of_consumes`).
-/

namespace AppLauncher.Document.Toml

/-- Reading the text takes the draft to another, whatever follows the text.  The reader counts lines, and no text has
more of them than characters. -/
def Consumes (d : Draft) (text : List Char) (d' : Draft) : Prop :=
  ∃ k ≤ text.length, ∀ n rest, lines? (n + k) d (text ++ rest) = lines? n d' rest

theorem Consumes.refl (d : Draft) : Consumes d [] d := ⟨0, Nat.le_refl _, fun _ _ => rfl⟩

theorem Consumes.trans {d d' d'' : Draft} {s t : List Char} (h : Consumes d s d') (h' : Consumes d' t d'') :
    Consumes d (s ++ t) d'' := by
  obtain ⟨j, hj, hs⟩ := h
  obtain ⟨k, hk, ht⟩ := h'
  refine ⟨k + j, by simp; omega, fun n rest => ?_⟩
  rw [List.append_assoc, ← Nat.add_assoc, hs, ht]

/-! ### Blank lines -/

theorem skipLines_newline (cs : List Char) : skipLines ('\n' :: cs) = skipLines cs := rfl

/-- A character that neither begins a comment nor is blank. -/
def isVisible (c : Char) : Bool := !isSpace c && c != '#' && c != '\n' && c != '\r'

theorem skipLines_visible {c : Char} {cs : List Char} (h : isVisible c = true) : skipLines (c :: cs) = c :: cs := by
  simp only [isVisible, Bool.and_eq_true, Bool.not_eq_true', bne_iff_ne, ne_eq] at h
  obtain ⟨⟨⟨h1, h2⟩, h3⟩, h4⟩ := h
  simp [skipLines, skipLinesLoop, skipSpace, h1, skipComment, h2, newline?, h3, h4]

/-- A blank line changes nothing. -/
theorem Consumes.blank {d d' : Draft} {t : List Char} (h : Consumes d t d') : Consumes d ('\n' :: t) d' := by
  obtain ⟨k, hk, ht⟩ := h
  refine ⟨k, by simp; omega, fun n rest => ?_⟩
  -- the blank line is skipped together with the line after it, so no more lines are counted
  rw [← ht n rest, List.cons_append]
  cases n + k with
  | zero => rfl
  | succ m => rw [lines?, lines?, skipLines_newline]

/-! ### Keys -/

/-- A name that may stand as a key without quotes. -/
def IsBareName (name : String) : Prop := name.toList ≠ [] ∧ name.toList.all isBare = true

instance (name : String) : Decidable (IsBareName name) := inferInstanceAs (Decidable (_ ∧ _))

theorem IsBareName.isBare_of_mem {name : String} (h : IsBareName name) {c : Char} (hc : c ∈ name.toList) :
    isBare c = true :=
  List.all_eq_true.1 h.2 c hc

private theorem takeWhile_bare {name : String} (h : IsBareName name) {x : Char} (hx : isBare x = false)
    (rest : List Char) : (name.toList ++ x :: rest).takeWhile isBare = name.toList ∧
      (name.toList ++ x :: rest).dropWhile isBare = x :: rest := by
  have hall : ∀ c ∈ name.toList, isBare c = true := fun c => h.isBare_of_mem
  constructor
  · rw [List.takeWhile_append_of_pos hall, List.takeWhile_cons_of_neg (by simp [hx]), List.append_nil]
  · rw [List.dropWhile_append_of_pos hall, List.dropWhile_cons_of_neg (by simp [hx])]

private theorem isBare_ne {c d : Char} (hc : isBare c = true) (hd : isBare d = false) : c ≠ d := by
  rintro rfl
  rw [hc] at hd
  exact absurd hd (by decide)

/-- The first character of a bare name is neither blank nor a bracket nor a quote. -/
private theorem IsBareName.cons {name : String} (h : IsBareName name) :
    ∃ c cs, name.toList = c :: cs ∧ isBare c = true ∧ isVisible c = true := by
  cases hn : name.toList with
  | nil => exact absurd hn h.1
  | cons c cs =>
    have hc : isBare c = true := h.isBare_of_mem (by simp [hn])
    refine ⟨c, cs, rfl, hc, ?_⟩
    have h1 : c ≠ ' ' := isBare_ne hc (by decide)
    have h2 : c ≠ '\t' := isBare_ne hc (by decide)
    have h3 : c ≠ '#' := isBare_ne hc (by decide)
    have h4 : c ≠ '\n' := isBare_ne hc (by decide)
    have h5 : c ≠ '\r' := isBare_ne hc (by decide)
    simp [isVisible, isSpace, h1, h2, h3, h4, h5]

private theorem keyPart?_bare {name : String} (h : IsBareName name) {x : Char} (hx : isBare x = false)
    (rest : List Char) : keyPart? (name.toList ++ x :: rest) = some (name, x :: rest) := by
  obtain ⟨c, cs, hn, hc, -⟩ := h.cons
  obtain ⟨ht, hd⟩ := takeWhile_bare h hx rest
  have h1 : c ≠ '"' := isBare_ne hc (by decide)
  have h2 : c ≠ '\'' := isBare_ne hc (by decide)
  unfold keyPart?
  split
  · rename_i heq
    rw [hn] at heq
    exact absurd (List.cons.inj heq).1 h1
  · rename_i heq
    rw [hn] at heq
    exact absurd (List.cons.inj heq).1 h2
  · rw [ht, hd]
    simp [h.1]

/-- The text of a key: its names with dots between them. -/
def dotted : List String → List Char
  | [] => []
  | [name] => name.toList
  | name :: names => name.toList ++ '.' :: dotted names

private theorem skipSpace_bare {name : String} (h : IsBareName name) (rest : List Char) :
    skipSpace (name.toList ++ rest) = name.toList ++ rest := by
  obtain ⟨c, cs, hn, hc, -⟩ := h.cons
  have h1 : c ≠ ' ' := isBare_ne hc (by decide)
  have h2 : c ≠ '\t' := isBare_ne hc (by decide)
  simp [hn, skipSpace, isSpace, h1, h2]

private theorem keyLoop_dotted {names : List String} (hne : names ≠ []) (hnames : ∀ n ∈ names, IsBareName n)
    {x : Char} {rest : List Char} (hx : isBare x = false) (hdot : (skipSpace (x :: rest)).head? ≠ some '.')
    {bound : Nat} (hbound : names.length ≤ bound) (done : List String) :
    keyLoop bound (dotted names ++ x :: rest) done = some (done.reverse ++ names, skipSpace (x :: rest)) := by
  induction names generalizing bound done with
  | nil => exact absurd rfl hne
  | cons name names ih =>
    have hname := hnames name List.mem_cons_self
    obtain ⟨m, rfl⟩ : ∃ m, bound = m + 1 := ⟨bound - 1, by simp at hbound; omega⟩
    cases names with
    | nil =>
      rw [dotted, keyLoop, skipSpace_bare hname, keyPart?_bare hname hx]
      simp only [Option.bind_eq_bind, Option.bind_some]
      split
      · rename_i heq
        rw [heq] at hdot
        exact absurd rfl hdot
      · simp
    | cons name' names =>
      have htext : dotted (name :: name' :: names) ++ x :: rest =
          name.toList ++ '.' :: (dotted (name' :: names) ++ x :: rest) := by simp [dotted]
      have hskip : ∀ cs, skipSpace ('.' :: cs) = '.' :: cs := fun cs => rfl
      have hrest : keyLoop m (dotted (name' :: names) ++ x :: rest) (name :: done) = _ :=
        ih (by simp) (fun n hn => hnames n (List.mem_cons_of_mem _ hn)) (by simpa using hbound) (name :: done)
      rw [htext, keyLoop, skipSpace_bare hname, keyPart?_bare hname (by decide)]
      simpa [hskip] using hrest

/-- Bare names with dots between them are the whole key, unless another dot follows. -/
theorem key?_dotted (names : List String) (hne : names ≠ []) (hnames : ∀ n ∈ names, IsBareName n)
    (hlength : names.length < depthLimit) (x : Char) (rest : List Char) (hx : isBare x = false)
    (hdot : (skipSpace (x :: rest)).head? ≠ some '.') :
    key? (dotted names ++ x :: rest) = some (names, skipSpace (x :: rest)) :=
  keyLoop_dotted hne hnames hx hdot (Nat.le_sub_one_of_lt hlength) []

/-- A bare name is the whole key, unless a dot follows. -/
theorem key?_bare {name : String} (h : IsBareName name) (x : Char) (rest : List Char) (hx : isBare x = false)
    (hdot : (skipSpace (x :: rest)).head? ≠ some '.') :
    key? (name.toList ++ x :: rest) = some ([name], skipSpace (x :: rest)) :=
  key?_dotted [name] (by simp) (by simpa using h) (by simp [depthLimit]) x rest hx hdot

theorem lineEnd?_newline (rest : List Char) : lineEnd? ('\n' :: rest) = some rest := rfl

/-! ### Lines -/

/-- The text of a value at the end of a line. -/
structure ValueText (text : List Char) (v : Value) : Prop where
  visible : ∀ rest, skipSpace (text ++ '\n' :: rest) = text ++ '\n' :: rest
  value : ∀ rest, value? depthLimit (text ++ '\n' :: rest) = some (v, '\n' :: rest)

private theorem keyLine?_dotted {d d' : Draft} {path : List String} {name : String}
    (hnames : ∀ n ∈ path ++ [name], IsBareName n) (hlength : path.length + 1 < depthLimit) {text : List Char}
    {v : Value} (hv : ValueText text v) (hput : d.put path name v = some d') (rest : List Char) :
    keyLine? d (dotted (path ++ [name]) ++ ' ' :: '=' :: ' ' :: (text ++ '\n' :: rest)) = some (d', rest) := by
  have hkey := key?_dotted _ (by simp) hnames (by simpa using hlength) ' ' ('=' :: ' ' :: (text ++ '\n' :: rest))
    (by decide) (by simp [skipSpace, isSpace])
  have hequals : skipSpace (' ' :: '=' :: ' ' :: (text ++ '\n' :: rest)) = '=' :: ' ' :: (text ++ '\n' :: rest) := rfl
  have hskip : skipSpace (' ' :: (text ++ '\n' :: rest)) = text ++ '\n' :: rest := hv.visible rest
  rw [hequals] at hkey
  simp [keyLine?, hkey, after?, hskip, hv.value rest, lineEnd?_newline, splitKey?, hput]

/-- The first character of a key of bare names is neither blank nor a bracket. -/
private theorem dotted_cons {path : List String} {name : String} (hnames : ∀ n ∈ path ++ [name], IsBareName n) :
    ∃ c cs, dotted (path ++ [name]) = c :: cs ∧ isBare c = true ∧ isVisible c = true := by
  cases path with
  | nil => exact (hnames name (by simp)).cons
  | cons first path =>
    obtain ⟨c, cs, hn, hc, hvis⟩ := (hnames first (by simp)).cons
    cases path <;> exact ⟨c, _, by simp [dotted, hn]; rfl, hc, hvis⟩

/-- A line with a key of bare names and a value puts the value under the key. -/
theorem consumes_dotted {d d' : Draft} (path : List String) (name : String)
    (hnames : ∀ n ∈ path ++ [name], IsBareName n) (hlength : path.length + 1 < depthLimit) {text : List Char}
    {v : Value} (hv : ValueText text v) (hput : d.put path name v = some d') :
    Consumes d (dotted (path ++ [name]) ++ " = ".toList ++ text ++ ['\n']) d' := by
  refine ⟨1, by simp; omega, fun n rest => ?_⟩
  obtain ⟨c, cs, hn, hc, hvis⟩ := dotted_cons hnames
  have hb : c ≠ '[' := isBare_ne hc (by decide)
  have e : dotted (path ++ [name]) ++ " = ".toList ++ text ++ ['\n'] ++ rest =
      dotted (path ++ [name]) ++ ' ' :: '=' :: ' ' :: (text ++ '\n' :: rest) := by simp
  have hline := keyLine?_dotted hnames hlength hv hput rest
  rw [hn, List.cons_append] at hline
  rw [e, lines?, hn, List.cons_append, skipLines_visible hvis]
  split
  · rename_i heq
    exact absurd heq (by simp)
  · rename_i heq
    exact absurd (List.cons.inj heq).1 hb
  · rw [hline]
    rfl

/-- A line with a bare key and a value puts the value under the key. -/
theorem consumes_keyLine {d d' : Draft} {name : String} (hname : IsBareName name) {text : List Char} {v : Value}
    (hv : ValueText text v) (hput : d.put [] name v = some d') :
    Consumes d (name.toList ++ " = ".toList ++ text ++ ['\n']) d' :=
  consumes_dotted [] name (by simpa using hname) (by decide) hv hput

/-- A header opens its table. -/
theorem consumes_header {d d' : Draft} {name : String} (hname : IsBareName name)
    (hopen : d.openTable [] name = some d') : Consumes d ('[' :: name.toList ++ [']', '\n']) d' := by
  refine ⟨1, by simp, fun n rest => ?_⟩
  obtain ⟨c, cs, hn, hc, -⟩ := hname.cons
  have hb : c ≠ '[' := isBare_ne hc (by decide)
  have e : '[' :: name.toList ++ [']', '\n'] ++ rest = '[' :: (name.toList ++ ']' :: '\n' :: rest) := by simp
  have hkey := key?_bare hname ']' ('\n' :: rest) (by decide) (by simp [skipSpace, isSpace])
  have hbracket : skipSpace (']' :: '\n' :: rest) = ']' :: '\n' :: rest := rfl
  have hline : headerLine? d ('[' :: (name.toList ++ ']' :: '\n' :: rest)) = some (d', rest) := by
    rw [hbracket] at hkey
    unfold headerLine?
    split
    · rename_i heq
      rw [hn] at heq
      exact absurd (List.cons.inj (List.cons.inj heq).2).1 hb
    · rename_i heq
      rw [← (List.cons.inj heq).2]
      simp [hkey, after?, lineEnd?_newline, splitKey?, hopen]
    · rename_i hno
      exact absurd rfl (hno _)
  rw [e, lines?, skipLines_visible (by decide)]
  simp only [hline, Option.bind_eq_bind, Option.bind_some]

/-- A text that takes the empty draft to another is the document that the other is finished to. -/
theorem read?_of_consumes {text : List Char} {d : Draft} (h : Consumes Draft.empty text d)
    (hmark : text.head? ≠ some '\ufeff') : read? text = d.finish := by
  obtain ⟨k, hk, ht⟩ := h
  have hdrop : dropMark text = text := by
    unfold dropMark
    split
    · exact absurd rfl hmark
    · rfl
  have hend : ∀ n, lines? n d [] = some d := by
    intro n
    cases n with
    | zero => rfl
    | succ n => rfl
  -- the reader may take one line more than there are characters
  have := ht (text.length + 1 - k) []
  rw [Nat.sub_add_cancel (by omega), List.append_nil, hend] at this
  simp [read?, hdrop, this]

/-! ### Tables of the top level -/

namespace Draft

/-- The draft that fills the table under a key of the top level. -/
def filling (root : Entries) (key : String) (entries : Entries) : Draft := ⟨root, some ⟨[], key, false, entries⟩⟩

variable {root entries : Entries} {key name : String}

theorem put_filling (root : Entries) (key : String) (v : Value) (h : entries.lookup name = none) :
    (filling root key entries).put [] name v = some (filling root key (entries ++ [(name, .value v)])) := by
  simp [filling, put, putDotted, descend, h]

theorem close_filling (h : root.lookup key = none) :
    (filling root key entries).close = some (root ++ [(key, .table .header entries)]) := by
  simp [filling, close, descend, h]

theorem openTable_of_close {d : Draft} (hd : d.close = some root) (h : root.lookup key = none) :
    d.openTable [] key = some (filling root key []) := by
  simp [openTable, hd, descend, h, filling]

end Draft

theorem finishEntries_eq_map (entries : List (String × Item)) :
    finishEntries entries = entries.map fun e => (e.1, e.2.finish) := by
  induction entries with
  | nil => simp [finishEntries]
  | cons e rest ih =>
    obtain ⟨k, i⟩ := e
    simp [finishEntries, ih]

end AppLauncher.Document.Toml
