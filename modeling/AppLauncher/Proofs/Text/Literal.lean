import AppLauncher.Proofs.Text.Characters
import AppLauncher.Text.Literal

/-!
# Literals read back

The literal of a text is complete (`spells_encode`): it has no control, its only bare quotes are the first and the last
character, and what it spells is the text, whatever follows it.  So a script is cut at its literals in one way, by
looking for quotes without decoding anything (`cuts_encode`), and what is outside the literals is left as it is
(`cuts_code`).
-/

namespace AppLauncher.Text.Literal

/-- A character that stands in a literal as it is. -/
structure IsPlain (c : Char) : Prop where
  ne_quote : c ≠ '"'
  ne_backslash : c ≠ '\\'
  visible : ' ' ≤ c

/-- What can stand between the quotes of a literal: plain characters, and backslashes each with the character that it
escapes.  So no quote stands there bare, and no backslash waits for a character at the end. -/
inductive Closed : List Char → Prop
  | nil : Closed []
  | plain {c : Char} {cs : List Char} (hc : IsPlain c) (h : Closed cs) : Closed (c :: cs)
  | escape {e : Char} {cs : List Char} (he : ' ' ≤ e) (h : Closed cs) : Closed ('\\' :: e :: cs)

/-- A complete literal and the text that it stands for. -/
structure Spells (literal text : List Char) : Prop where
  quoted : ∃ body, literal = '"' :: body ++ ['"'] ∧ Closed body
  visible : ∀ c ∈ literal, ' ' ≤ c
  decodes : ∀ rest, decode? (literal ++ rest) = some (text, rest)

/-- The characters that are escaped by a letter, each with that letter. -/
def shortEscapes : List (Char × Char) :=
  [('"', '"'), ('\\', '\\'), ('\x08', 'b'), ('\x0c', 'f'), ('\n', 'n'), ('\r', 'r'), ('\t', 't')]

variable {c : Char} {cs ds : List Char}

/-! ### Characters of a literal -/

theorem unit?_toNat (c : Char) : unit? c.toNat = some c := by
  have hvalid : c.toNat.isValidChar := c.valid
  rw [unit?, if_pos hvalid, Char.ofNat_toNat]

/-- The number of a control has two hexadecimal digits that spell it. -/
theorem hex4?_control (h : c < ' ') :
    hex4? '0' '0' (hexChar (c.toNat / 16)) (hexChar (c.toNat % 16)) = some c.toNat := by
  have all : ∀ n < 32, hex4? '0' '0' (hexChar (n / 16)) (hexChar (n % 16)) = some n := by decide
  exact all c.toNat (char_lt_iff.1 h)

private theorem isPlain_hexChar {n : Nat} (h : n < 16) : IsPlain (hexChar n) := by
  have all : ∀ n < 16, hexChar n ≠ '"' ∧ hexChar n ≠ '\\' ∧ ' ' ≤ hexChar n := by decide
  obtain ⟨hquote, hbackslash, hvisible⟩ := all n h
  exact ⟨hquote, hbackslash, hvisible⟩

private theorem encodeChar_short {p : Char × Char} (h : p ∈ shortEscapes) :
    encodeChar p.1 = ['\\', p.2] ∧ shortEscape? p.2 = some p.1 ∧ ' ' ≤ p.2 := by
  have all : ∀ p ∈ shortEscapes, encodeChar p.1 = ['\\', p.2] ∧ shortEscape? p.2 = some p.1 ∧ ' ' ≤ p.2 := by
    decide
  exact all p h

/-- How a character stands in a literal: by a letter behind a backslash, by its number, or as it is. -/
theorem encodeChar_cases (c : Char) :
    (∃ e, encodeChar c = ['\\', e] ∧ shortEscape? e = some c ∧ ' ' ≤ e) ∨
    (∃ x y, encodeChar c = ['\\', 'u', '0', '0', x, y] ∧ hex4? '0' '0' x y = some c.toNat ∧ IsPlain x ∧ IsPlain y) ∨
    (encodeChar c = [c] ∧ IsPlain c) := by
  by_cases hshort : c ∈ shortEscapes.map Prod.fst
  · obtain ⟨p, hp, rfl⟩ := List.mem_map.1 hshort
    exact Or.inl ⟨p.2, encodeChar_short hp⟩
  simp only [shortEscapes, List.map_cons, List.map_nil, List.mem_cons, List.not_mem_nil, or_false, not_or] at hshort
  obtain ⟨hquote, hbackslash, hback, hfeed, hnewline, hreturn, htab⟩ := hshort
  rw [encodeChar, if_neg hquote, if_neg hbackslash, if_neg hback, if_neg hfeed, if_neg hnewline, if_neg hreturn,
    if_neg htab]
  by_cases hcontrol : c < ' '
  · have hlt : c.toNat < 32 := char_lt_iff.1 hcontrol
    rw [if_pos hcontrol]
    exact Or.inr (Or.inl ⟨_, _, rfl, hex4?_control hcontrol, isPlain_hexChar (by omega), isPlain_hexChar (by omega)⟩)
  · have hvisible : ' ' ≤ c := by
      rwa [char_lt_iff, Nat.not_lt, ← char_le_iff] at hcontrol
    rw [if_neg hcontrol]
    exact Or.inr (Or.inr ⟨rfl, hquote, hbackslash, hvisible⟩)

private theorem shortEscape?_ne_u {e : Char} (h : shortEscape? e = some c) : e ≠ 'u' := by
  rintro rfl
  simp [shortEscape?] at h

theorem decodeBody_encodeChar (c : Char) (rest done : List Char) :
    decodeBody (encodeChar c ++ rest) done = decodeBody rest (c :: done) := by
  rcases encodeChar_cases c with ⟨e, he, hs, -⟩ | ⟨x, y, he, hx, -, -⟩ | ⟨he, hc⟩
  · -- a `u` would have four digits behind it
    rw [he, List.cons_append, List.singleton_append, decodeBody, hs]
    exact fun _ _ _ _ _ hu _ => shortEscape?_ne_u hs hu
  · rw [he]
    simp only [List.cons_append, List.nil_append]
    rw [decodeBody]
    simp only [hx, unit?_toNat]
  · have hallowed : ¬ (c < ' ' ∨ c = '\\') := by
      rintro (hcontrol | hbackslash)
      · exact Nat.not_lt_of_le (char_le_iff.1 hc.visible) (char_lt_iff.1 hcontrol)
      · exact hc.ne_backslash hbackslash
    rw [he, List.singleton_append, decodeBody, if_neg hallowed]
    · exact hc.ne_quote
    · exact fun _ _ _ _ _ hbackslash _ => hc.ne_backslash hbackslash
    · exact fun _ _ hbackslash _ => hc.ne_backslash hbackslash

theorem decodeBody_flatMap (cs rest done : List Char) :
    decodeBody (cs.flatMap encodeChar ++ '"' :: rest) done = some (done.reverse ++ cs, rest) := by
  induction cs generalizing done with
  | nil => simp [decodeBody]
  | cons c cs ih =>
    rw [List.flatMap_cons, List.append_assoc, decodeBody_encodeChar, ih]
    simp

theorem decode?_encode (cs rest : List Char) : decode? (encode cs ++ rest) = some (cs, rest) := by
  have h := decodeBody_flatMap cs rest []
  simpa [encode, decode?] using h

/-! ### Complete literals -/

theorem Closed.append (hc : Closed cs) (hd : Closed ds) : Closed (cs ++ ds) := by
  induction hc with
  | nil => exact hd
  | plain hc _ ih => exact .plain hc ih
  | escape he _ ih => exact .escape he ih

theorem Closed.visible (h : Closed cs) : ∀ c ∈ cs, ' ' ≤ c := by
  induction h with
  | nil => simp
  | plain hc _ ih =>
    intro c hmem
    rcases List.mem_cons.1 hmem with rfl | hmem
    · exact hc.visible
    · exact ih c hmem
  | escape he _ ih =>
    intro c hmem
    rcases List.mem_cons.1 hmem with rfl | hmem
    · decide
    rcases List.mem_cons.1 hmem with rfl | hmem
    · exact he
    · exact ih c hmem

private theorem closed_encodeChar (c : Char) : Closed (encodeChar c) := by
  rcases encodeChar_cases c with ⟨e, he, -, hvisible⟩ | ⟨x, y, he, -, hx, hy⟩ | ⟨he, hc⟩
  · rw [he]
    exact .escape hvisible .nil
  · have hzero : IsPlain '0' := ⟨by decide, by decide, by decide⟩
    rw [he]
    exact .escape (by decide) (.plain hzero (.plain hzero (.plain hx (.plain hy .nil))))
  · rw [he]
    exact .plain hc .nil

theorem closed_flatMap (cs : List Char) : Closed (cs.flatMap encodeChar) := by
  induction cs with
  | nil => exact .nil
  | cons c cs ih =>
    rw [List.flatMap_cons]
    exact (closed_encodeChar c).append ih

/-- The literal of a text is complete and stands for that text. -/
theorem spells_encode (cs : List Char) : Spells (encode cs) cs where
  quoted := ⟨cs.flatMap encodeChar, rfl, closed_flatMap cs⟩
  visible := by
    intro c hc
    simp only [encode, List.mem_append, List.mem_cons, List.not_mem_nil, or_false] at hc
    rcases hc with (rfl | hc) | rfl
    · decide
    · exact (closed_flatMap cs).visible c hc
    · decide
  decodes := decode?_encode cs

/-! ### Scripts cut at their literals -/

/-- The script with every literal emptied, and the literals in order.  A literal begins at a quote and ends at the next
quote that no backslash escapes; its part that has been read stands in reverse. -/
def cutLoop : Option (List Char) → List Char → Option (List Char × List (List Char))
  | none, [] => some ([], [])
  | none, '"' :: rest => cutLoop (some ['"']) rest
  | none, c :: rest => (cutLoop none rest).map fun p => (c :: p.1, p.2)
  | some _, [] => none
  | some part, '"' :: rest => (cutLoop none rest).map fun p => ('"' :: '"' :: p.1, ('"' :: part).reverse :: p.2)
  | some part, '\\' :: e :: rest => cutLoop (some (e :: '\\' :: part)) rest
  | some part, c :: rest => cutLoop (some (c :: part)) rest

/-- The script with every literal emptied, and the literals in order, if every literal ends. -/
def cut? (script : List Char) : Option (List Char × List (List Char)) := cutLoop none script

/-- Whatever comes after it, a part of a script is cut into this code and these literals. -/
def Cuts (cs code : List Char) (literals : List (List Char)) : Prop :=
  ∀ rest, cut? (cs ++ rest) = (cut? rest).map fun p => (code ++ p.1, literals ++ p.2)

theorem Cuts.append {code code' : List Char} {literals literals' : List (List Char)} (h : Cuts cs code literals)
    (h' : Cuts ds code' literals') : Cuts (cs ++ ds) (code ++ code') (literals ++ literals') := by
  intro rest
  rw [List.append_assoc, h, h', Option.map_map]
  simp [Function.comp_def]

theorem cuts_nil : Cuts [] [] [] := by
  intro rest
  simp

theorem Cuts.cut? {code : List Char} {literals : List (List Char)} (h : Cuts cs code literals) :
    Literal.cut? cs = some (code, literals) := by
  have hcut := h []
  rw [List.append_nil] at hcut
  simpa [Literal.cut?, cutLoop] using hcut

theorem cuts_code (h : '"' ∉ cs) : Cuts cs cs [] := by
  induction cs with
  | nil => exact cuts_nil
  | cons c cs ih =>
    have hc : c ≠ '"' := fun heq => h (heq ▸ List.mem_cons_self)
    have hcs := ih fun hmem => h (List.mem_cons_of_mem _ hmem)
    intro rest
    have hrest := hcs rest
    unfold Literal.cut? at hrest ⊢
    rw [List.cons_append, cutLoop, hrest, Option.map_map]
    · rfl
    · exact hc

/-- A literal ends at the first quote after a closed text, and not before. -/
private theorem cutLoop_closed (h : Closed cs) (part rest : List Char) : cutLoop (some part) (cs ++ '"' :: rest) =
    (cut? rest).map fun p => ('"' :: '"' :: p.1, (part.reverse ++ cs ++ ['"']) :: p.2) := by
  induction h generalizing part with
  | nil => simp [cutLoop, cut?]
  | plain hc _ ih =>
    rw [List.cons_append, cutLoop, ih]
    · simp
    · exact hc.ne_quote
    · exact fun e rest heq _ => hc.ne_backslash heq
  | escape _ _ ih =>
    -- what is escaped is passed unread, also where it is a quote
    rw [List.cons_append, List.cons_append, cutLoop, ih]
    simp

theorem cuts_encode (cs : List Char) : Cuts (encode cs) ['"', '"'] [encode cs] := by
  intro rest
  have h := cutLoop_closed (closed_flatMap cs) ['"'] rest
  simpa [encode, cut?, cutLoop] using h

end AppLauncher.Text.Literal
