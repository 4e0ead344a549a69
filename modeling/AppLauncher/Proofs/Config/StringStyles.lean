import AppLauncher.Config.Render
import AppLauncher.Document.Toml.Chars
import AppLauncher.Proofs.Text.Characters
import Mathlib.Tactic.SplitIfs

/-!
# Strings read back as they were written

Each of the four styles holds its text: what `stringText` writes, `string?` reads, whatever the text is and whatever
follows but another quote (`string?_stringText`).  A basic string is read character by character, a string of several
lines with up to two bare quotes waiting (`multiBody_multiChars`), and a literal string as it stands.
-/

namespace AppLauncher.Config.Render

open AppLauncher.Document.Toml
open AppLauncher.Text (char_lt_iff char_le_iff char_eq_iff)

/-! ### Characters -/

theorem isControl_iff {c : Char} :
    isControl c = true ↔ (c.toNat < 32 ∧ c.toNat ≠ 9 ∧ c.toNat ≠ 10) ∨ c.toNat = 127 := by
  simp only [isControl, Bool.or_eq_true, Bool.and_eq_true, decide_eq_true_eq, bne_iff_ne, ne_eq, beq_iff_eq,
    char_lt_iff, char_eq_iff]
  simp only [Char.reduceToNat, and_assoc]

theorem isPlain_iff {c : Char} :
    isPlain c = true ↔ c.toNat = 9 ∨ (32 ≤ c.toNat ∧ c.toNat ≤ 126) ∨ 128 ≤ c.toNat := by
  simp only [isPlain, Bool.or_eq_true, Bool.and_eq_true, decide_eq_true_eq, beq_iff_eq, char_le_iff, char_eq_iff]
  simp only [Char.reduceToNat, or_assoc]

/-- A character is a control, a newline, or may stand in a string as it is. -/
theorem isPlain_of_not_isControl {c : Char} (h : isControl c = false) (hn : c ≠ '\n') : isPlain c = true := by
  rw [← Bool.not_eq_true, isControl_iff] at h
  rw [isPlain_iff]
  have hn' : c.toNat ≠ 10 := fun e => hn (char_eq_iff.2 e)
  omega

/-- The number of a control has two hexadecimal digits that spell it. -/
theorem charOfHex?_control {c : Char} (h : isControl c = true) :
    charOfHex? ['0', '0', Text.upperHexChar (c.toNat / 16), Text.upperHexChar (c.toNat % 16)] = some c := by
  have all : ∀ n < 128, charOfHex? ['0', '0', Text.upperHexChar (n / 16), Text.upperHexChar (n % 16)] =
      some (Char.ofNat n) := by decide
  -- all controls are ASCII characters
  rw [isControl_iff] at h
  rw [all c.toNat (by omega), Char.ofNat_toNat]

/-- How a character stands in a string of several lines: by an escape that is read as the character, or, if it needs
none, as it is. -/
theorem escape?_cases (c : Char) :
    (∃ e, escape? c = some ['\\', e] ∧ shortEscape? e = some c) ∨
    (∃ x y, escape? c = some ['\\', 'u', '0', '0', x, y] ∧ charOfHex? ['0', '0', x, y] = some c) ∨
    (escape? c = none ∧ c ≠ '\\' ∧ c ≠ '\r' ∧ (c = '\n' ∨ isPlain c = true)) := by
  unfold escape?
  split_ifs with h1 h2 h3 h4 h5 h6
  · exact Or.inl ⟨'b', rfl, by rw [h1]; rfl⟩
  · exact Or.inl ⟨'t', rfl, by rw [h2]; rfl⟩
  · exact Or.inl ⟨'f', rfl, by rw [h3]; rfl⟩
  · exact Or.inl ⟨'r', rfl, by rw [h4]; rfl⟩
  · exact Or.inl ⟨'\\', rfl, by rw [h5]; rfl⟩
  · exact Or.inr (Or.inl ⟨_, _, rfl, charOfHex?_control h6⟩)
  · refine Or.inr (Or.inr ⟨rfl, h5, h4, ?_⟩)
    by_cases hn : c = '\n'
    · exact Or.inl hn
    · exact Or.inr (isPlain_of_not_isControl (by simpa using h6) hn)

private theorem shortEscape?_ne_hex {e c : Char} (h : shortEscape? e = some c) : e ≠ 'u' ∧ e ≠ 'U' := by
  constructor
  · rintro rfl
    simp [shortEscape?] at h
  · rintro rfl
    simp [shortEscape?] at h

/-! ### Basic strings -/

/-- One character of a basic string is read back. -/
theorem basicBody_basicChar (c : Char) (rest done : List Char) :
    basicBody (basicChar c ++ rest) done = basicBody rest (c :: done) := by
  unfold basicChar
  split_ifs with hq hn
  · rw [hq]
    rfl
  · rw [hn]
    rfl
  · rcases escape?_cases c with ⟨e, he, hs⟩ | ⟨x, y, he, hx⟩ | ⟨he, hb, -, hp⟩
    · obtain ⟨hu, hU⟩ := shortEscape?_ne_hex hs
      rw [he]
      simp [basicBody, hs, hu, hU]
    · rw [he]
      simp [basicBody, hx]
    · have hp' : isPlain c = true := hp.resolve_left hn
      rw [he]
      simp [basicBody, hb, hp']

theorem basicBody_flatMap (cs rest done : List Char) :
    basicBody (cs.flatMap basicChar ++ '"' :: rest) done = some (done.reverse ++ cs, rest) := by
  induction cs generalizing done with
  | nil => simp [basicBody]
  | cons c cs ih => rw [List.flatMap_cons, List.append_assoc, basicBody_basicChar, ih]; simp

/-! ### Strings of several lines -/

/-- Up to two quotes before a character that is none belong to the text. -/
private theorem multiBody_quotes {n : Nat} (hn : n ≤ 2) {x : Char} (hx : x ≠ '"') (rest done : List Char) :
    multiBody false (List.replicate n '"' ++ x :: rest) done =
      multiBody false (x :: rest) (List.replicate n '"' ++ done) := by
  obtain rfl | rfl | rfl : n = 0 ∨ n = 1 ∨ n = 2 := by omega
  · rfl
  · simp [multiBody, hx, isPlain]
  · simp [multiBody, hx, isPlain]

/-- One character but a quote is read back. -/
private theorem multiBody_char {c : Char} (hc : c ≠ '"') (rest done : List Char) :
    multiBody false ((escape? c).getD [c] ++ rest) done = multiBody false rest (c :: done) := by
  rcases escape?_cases c with ⟨e, he, hs⟩ | ⟨x, y, he, hx⟩ | ⟨he, hb, hr, hp⟩
  · obtain ⟨hu, hU⟩ := shortEscape?_ne_hex hs
    rw [he]
    simp [multiBody, hs, hu, hU]
  · rw [he]
    simp [multiBody, hx]
  · rw [he]
    by_cases hn : c = '\n'
    · rw [hn]
      simp [multiBody]
    · have hp' : isPlain c = true := hp.resolve_left hn
      simp [multiBody, hb, hp', hr, hc]

/-- What a character is written as begins with a backslash or is the character itself. -/
private theorem escape?_head (c : Char) :
    ∃ x xs, (escape? c).getD [c] = x :: xs ∧ x ≠ '\r' ∧ (x = '\\' ∨ x = c) := by
  rcases escape?_cases c with ⟨e, he, -⟩ | ⟨x, y, he, -⟩ | ⟨he, -, hr, -⟩
  · exact ⟨'\\', [e], by rw [he]; rfl, by decide, Or.inl rfl⟩
  · exact ⟨'\\', ['u', '0', '0', x, y], by rw [he]; rfl, by decide, Or.inl rfl⟩
  · exact ⟨c, [], by rw [he]; rfl, hr, Or.inr rfl⟩

private theorem ne_of_eq_backslash_or {x c d : Char} (h : x = '\\' ∨ x = c) (hd : '\\' ≠ d) (hc : c ≠ d) :
    x ≠ d := by
  rcases h with rfl | rfl
  · exact hd
  · exact hc

/-- What is left to write of a text after `n` bare quotes is read back with these quotes, up to the closing quotes. -/
private theorem multiBody_multiChars {rest : List Char} (hrest : rest.head? ≠ some '"') (cs done : List Char) :
    ∀ n ≤ 2, multiBody false (List.replicate n '"' ++ (multiChars n cs ++ '"' :: '"' :: '"' :: rest)) done =
      some (done.reverse ++ List.replicate n '"' ++ cs, rest) := by
  induction cs generalizing done with
  | nil =>
    intro n hn
    cases rest with
    | nil =>
      obtain rfl | rfl | rfl : n = 0 ∨ n = 1 ∨ n = 2 := by omega
      all_goals simp [multiBody, multiChars]
    | cons x rest =>
      have hx : x ≠ '"' := by simpa using hrest
      obtain rfl | rfl | rfl : n = 0 ∨ n = 1 ∨ n = 2 := by omega
      all_goals simp [multiBody, multiChars, hx]
  | cons c cs ih =>
    intro n hn
    unfold multiChars
    split_ifs with hc h2
    · -- the third quote of a run is escaped, and the run begins anew
      subst hc h2
      have hstep : ∀ d, multiBody false ('\\' :: '"' :: (multiChars 0 cs ++ '"' :: '"' :: '"' :: rest)) d =
          multiBody false (multiChars 0 cs ++ '"' :: '"' :: '"' :: rest) ('"' :: d) := by
        intro d
        simp [multiBody, shortEscape?]
      rw [List.cons_append, List.cons_append, multiBody_quotes (by omega) (by decide), hstep]
      simpa using ih ('"' :: (List.replicate 2 '"' ++ done)) 0 (by omega)
    · -- one more bare quote waits
      subst hc
      have := ih done (n + 1) (by omega)
      rw [List.replicate_succ'] at this
      simpa using this
    · -- the quotes that wait are followed by a character that is none
      obtain ⟨x, xs, hx, -, hxc⟩ := escape?_head c
      have hq : x ≠ '"' := ne_of_eq_backslash_or hxc (by decide) hc
      have hchar := multiBody_char hc (multiChars 0 cs ++ '"' :: '"' :: '"' :: rest)
        (List.replicate n '"' ++ done)
      rw [hx] at hchar
      rw [hx, List.append_assoc, List.cons_append, multiBody_quotes hn hq, ← List.cons_append, hchar]
      simpa using ih (c :: (List.replicate n '"' ++ done)) 0 (by omega)

/-! ### Literal strings -/

private theorem literalBody_self {cs : List Char} (hq : '\'' ∉ cs) (hp : ∀ c ∈ cs, isPlain c = true)
    (rest done : List Char) : literalBody (cs ++ '\'' :: rest) done = some (done.reverse ++ cs, rest) := by
  induction cs generalizing done with
  | nil => simp [literalBody]
  | cons c cs ih =>
    rw [List.mem_cons, not_or] at hq
    have hc : isPlain c = true := hp c (by simp)
    have := ih hq.2 (fun x hx => hp x (by simp [hx])) (c :: done)
    simp [literalBody, Ne.symm hq.1, hc, this]

/-- Up to two quotes before a character that is none belong to the text. -/
private theorem multiLiteralBody_quotes {n : Nat} (hn : n ≤ 2) {x : Char} (hx : x ≠ '\'')
    (rest done : List Char) : multiLiteralBody (List.replicate n '\'' ++ x :: rest) done =
      multiLiteralBody (x :: rest) (List.replicate n '\'' ++ done) := by
  obtain rfl | rfl | rfl : n = 0 ∨ n = 1 ∨ n = 2 := by omega
  · rfl
  · simp [multiLiteralBody, hx, isPlain]
  · simp [multiLiteralBody, hx, isPlain]

/-- A text without runs of three quotes is read back after `n` quotes of its first run, up to the closing quotes. -/
private theorem multiLiteralBody_self {rest : List Char} (hrest : rest.head? ≠ some '\'') (cs done : List Char)
    (hp : ∀ c ∈ cs, isControl c = false) :
    ∀ n ≤ 2, runFrom '\'' n cs ≤ 2 →
      multiLiteralBody (List.replicate n '\'' ++ (cs ++ '\'' :: '\'' :: '\'' :: rest)) done =
        some (done.reverse ++ List.replicate n '\'' ++ cs, rest) := by
  induction cs generalizing done with
  | nil =>
    intro n hn _
    cases rest with
    | nil =>
      obtain rfl | rfl | rfl : n = 0 ∨ n = 1 ∨ n = 2 := by omega
      all_goals simp [multiLiteralBody]
    | cons x rest =>
      have hx : x ≠ '\'' := by simpa using hrest
      obtain rfl | rfl | rfl : n = 0 ∨ n = 1 ∨ n = 2 := by omega
      all_goals simp [multiLiteralBody, hx]
  | cons c cs ih =>
    intro n hn hrun
    have hp' : ∀ c ∈ cs, isControl c = false := fun x hx => hp x (by simp [hx])
    unfold runFrom at hrun
    split_ifs at hrun with hc
    · -- one more quote of the run waits
      subst hc
      have := ih done hp' (n + 1) (by omega) (by omega)
      rw [List.replicate_succ'] at this
      simpa using this
    · have hstep : ∀ (r d : List Char), multiLiteralBody (c :: r) d = multiLiteralBody r (c :: d) := by
        intro r d
        have hctl : isControl c = false := hp c (by simp)
        by_cases hn : c = '\n'
        · rw [hn]
          simp [multiLiteralBody]
        · have hr : c ≠ '\r' := by
            rintro rfl
            exact absurd hctl (by decide)
          simp [multiLiteralBody, hc, hr, isPlain_of_not_isControl hctl hn]
      rw [List.cons_append, multiLiteralBody_quotes hn hc, hstep]
      simpa using ih (c :: (List.replicate n '\'' ++ done)) hp' 0 (by omega) (by omega)

/-! ### All styles -/

private theorem notMem_of_runFrom_eq_zero {q : Char} {n : Nat} {cs : List Char} (h : runFrom q n cs = 0) :
    q ∉ cs := by
  induction cs generalizing n with
  | nil => simp
  | cons c cs ih =>
    unfold runFrom at h
    split_ifs at h with hc
    · omega
    · rw [List.mem_cons, not_or]
      exact ⟨Ne.symm hc, ih (n := 0) (by omega)⟩

/-- A literal string is chosen only for a text that it can hold. -/
theorem styleOf_literal {cs : List Char} (h : styleOf cs = .literal) :
    (∀ c ∈ cs, isControl c = false) ∧ '\'' ∉ cs ∧ '\n' ∉ cs := by
  unfold styleOf at h
  dsimp only at h
  split_ifs at h with h1 h2
  simp only [Bool.and_eq_true, Bool.not_eq_true', List.any_eq_false, Bool.not_eq_true, beq_iff_eq,
    List.contains_eq_mem, decide_eq_false_iff_not] at h2
  exact ⟨h2.1.1, notMem_of_runFrom_eq_zero h2.1.2, h2.2⟩

/-- A literal string of several lines is chosen only for a text that it can hold. -/
theorem styleOf_multiLiteral {cs : List Char} (h : styleOf cs = .multiLiteral) :
    (∀ c ∈ cs, isControl c = false) ∧ longestRun '\'' cs ≤ 2 := by
  unfold styleOf at h
  dsimp only at h
  split_ifs at h with h1 h2 h3 h4
  simp only [Bool.and_eq_true, Bool.not_eq_true', List.any_eq_false, Bool.not_eq_true, decide_eq_true_eq] at h4
  exact h4

/-- The line end after an opening is dropped, and nothing else of the text. -/
private theorem dropNewline_opening (cs body : List Char)
    (h : '\n' ∉ cs → body.head? ≠ some '\n' ∧ body.head? ≠ some '\r') :
    dropNewline ((if cs.contains '\n' then ['\n'] else []) ++ body) = body := by
  split_ifs with hn
  · rfl
  · have hn' : '\n' ∉ cs := by simpa using hn
    obtain ⟨h1, h2⟩ := h hn'
    cases body with
    | nil => rfl
    | cons c body =>
      simp only [List.head?_cons, ne_eq, Option.some.injEq] at h1 h2
      simp [dropNewline, newline?, h1, h2]

/-- A quote that two others do not follow opens a string of one line. -/
private theorem string?_basic {body : List Char} (h : ∀ r, body ≠ '"' :: '"' :: r) :
    string? ('"' :: body) = basicBody body [] := by
  unfold string?
  split
  · rename_i r heq
    exact absurd (List.cons.inj heq).2 (h r)
  · rename_i heq
    rw [(List.cons.inj heq).2]
  · rename_i heq
    exact absurd (List.cons.inj heq).1 (by decide)
  · rename_i heq
    exact absurd (List.cons.inj heq).1 (by decide)
  · rename_i hno _ _
    exact absurd rfl (hno body)

/-- A quote that two others do not follow opens a string of one line. -/
private theorem string?_literal {body : List Char} (h : ∀ r, body ≠ '\'' :: '\'' :: r) :
    string? ('\'' :: body) = literalBody body [] := by
  unfold string?
  split
  · rename_i heq
    exact absurd (List.cons.inj heq).1 (by decide)
  · rename_i heq
    exact absurd (List.cons.inj heq).1 (by decide)
  · rename_i r heq
    exact absurd (List.cons.inj heq).2 (h r)
  · rename_i heq
    rw [(List.cons.inj heq).2]
  · rename_i hno
    exact absurd rfl (hno body)

private theorem basicChar_head (c : Char) : ∃ x xs, basicChar c = x :: xs ∧ x ≠ '"' := by
  unfold basicChar
  split_ifs with hq hn
  · exact ⟨'\\', ['"'], rfl, by decide⟩
  · exact ⟨'\\', ['n'], rfl, by decide⟩
  · obtain ⟨x, xs, hx, -, hxc⟩ := escape?_head c
    exact ⟨x, xs, hx, ne_of_eq_backslash_or hxc (by decide) hq⟩

/-- A text is read back from the string that it is written as. -/
theorem string?_stringText (cs rest : List Char) (h1 : rest.head? ≠ some '"')
    (h2 : rest.head? ≠ some '\'') : string? (stringText cs ++ rest) = some (cs, rest) := by
  unfold stringText
  dsimp only
  cases hs : styleOf cs with
  | basic =>
    -- only an empty text has two quotes at once, and no third one follows them
    have hopen : ∀ r, cs.flatMap basicChar ++ '"' :: rest ≠ '"' :: '"' :: r := by
      intro r he
      cases cs with
      | nil =>
        have : rest = '"' :: r := by simpa using he
        exact h1 (by simp [this])
      | cons c cs =>
        obtain ⟨x, xs, hx, hne⟩ := basicChar_head c
        rw [List.flatMap_cons, hx] at he
        exact hne (List.cons.inj he).1
    have := string?_basic hopen
    rw [basicBody_flatMap] at this
    simpa using this
  | literal =>
    obtain ⟨hctl, hq, hn⟩ := styleOf_literal hs
    have hp : ∀ c ∈ cs, isPlain c = true := fun c hc =>
      isPlain_of_not_isControl (hctl c hc) (fun e => hn (e ▸ hc))
    have hopen : ∀ r, cs ++ '\'' :: rest ≠ '\'' :: '\'' :: r := by
      intro r he
      cases cs with
      | nil =>
        have : rest = '\'' :: r := by simpa using he
        exact h2 (by simp [this])
      | cons c cs => exact hq (by rw [(List.cons.inj he).1]; simp)
    have := string?_literal hopen
    rw [literalBody_self hq hp] at this
    simpa using this
  | multiBasic =>
    -- a text that holds a newline has one more in front, and any other begins with none
    have hbody := multiBody_multiChars h1 cs [] 0 (by omega)
    have hopen := dropNewline_opening cs (multiChars 0 cs ++ '"' :: '"' :: '"' :: rest) (by
      intro hn
      cases cs with
      | nil => simp [multiChars]
      | cons c cs =>
        rw [List.mem_cons, not_or] at hn
        unfold multiChars
        split_ifs with hc
        · simp
        · simp
        · obtain ⟨x, xs, hx, hr, hxc⟩ := escape?_head c
          have hxn : x ≠ '\n' := ne_of_eq_backslash_or hxc (by decide) (Ne.symm hn.1)
          simp [hx, hr, hxn])
    simp only [List.replicate_zero, List.nil_append, List.reverse_nil] at hbody
    rw [← hopen] at hbody
    simpa [string?] using hbody
  | multiLiteral =>
    obtain ⟨hctl, hrun⟩ := styleOf_multiLiteral hs
    have hbody := multiLiteralBody_self h2 cs [] hctl 0 (by omega) hrun
    have hopen := dropNewline_opening cs (cs ++ '\'' :: '\'' :: '\'' :: rest) (by
      intro hn
      cases cs with
      | nil => simp
      | cons c cs =>
        have hctl' := hctl c (by simp)
        rw [List.mem_cons, not_or] at hn
        refine ⟨by simpa using Ne.symm hn.1, ?_⟩
        rintro he
        have : c = '\r' := by simpa using he
        rw [this] at hctl'
        exact absurd hctl' (by decide))
    simp only [List.replicate_zero, List.nil_append, List.reverse_nil] at hbody
    rw [← hopen] at hbody
    simpa [string?] using hbody

end AppLauncher.Config.Render
