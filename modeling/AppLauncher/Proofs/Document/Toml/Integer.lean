import AppLauncher.Document.Toml.Scalar
import AppLauncher.Proofs.Text.Characters
import Mathlib.Tactic.SplitIfs

/-!
# Integers read back as they were written

A decimal text at the end of a line is read as an integer, and as nothing else (`scalar?_decimal`): no date or time
begins with such digits, and a double needs a point or a power of ten.
-/

namespace AppLauncher.Document.Toml

open AppLauncher.Text

/-- After equal texts of digits stands the same character. -/
private theorem eq_newline_of_append_eq (xs : List Char) {ds r ys : List Char} {y : Char}
    (hds : ∀ c ∈ ds, c.isDigit = true) (hxs : ∀ c ∈ xs, c.isDigit = true) (hy : y.isDigit = false)
    (h : ds ++ '\n' :: r = xs ++ y :: ys) : y = '\n' := by
  induction ds generalizing xs with
  | nil =>
    cases xs with
    | nil => exact (List.cons.inj h).1.symm
    | cons x xs =>
      have hx := hxs x (by simp)
      rw [← (List.cons.inj h).1] at hx
      exact absurd hx (by decide)
  | cons d ds ih =>
    cases xs with
    | nil =>
      have hd := hds d (by simp)
      rw [(List.cons.inj h).1, hy] at hd
      exact absurd hd (by decide)
    | cons x xs =>
      exact ih xs (fun c hc => hds c (by simp [hc])) (fun c hc => hxs c (by simp [hc])) (List.cons.inj h).2

private theorem isDigit_of_digit? {c : Char} {n : Nat} (h : digit? c = some n) : c.isDigit = true := by
  unfold digit? at h
  split_ifs at h with hc
  exact Char.isDigit_iff_toNat.2 ⟨char_le_iff.1 hc.1, char_le_iff.1 hc.2⟩

/-- A number of two digits stands before what is left. -/
private theorem two?_eq_some {least most n : Nat} {cs rest : List Char} (h : two? least most cs = some (n, rest)) :
    ∃ a b, cs = a :: b :: rest ∧ a.isDigit = true ∧ b.isDigit = true := by
  unfold two? at h
  split at h
  · rename_i a b r
    cases ha : digit? a with
    | none => simp [ha] at h
    | some x =>
      cases hb : digit? b with
      | none => simp [ha, hb] at h
      | some y =>
        simp only [ha, hb, Option.bind_eq_bind, Option.bind_some] at h
        split_ifs at h
        simp only [Option.pure_def, Option.some.injEq, Prod.mk.injEq] at h
        exact ⟨a, b, by rw [h.2], isDigit_of_digit? ha, isDigit_of_digit? hb⟩
  · simp at h

private theorem after?_eq_some {c : Char} {cs rest : List Char} (h : after? c cs = some rest) : cs = c :: rest := by
  unfold after? at h
  split at h
  · split_ifs at h with hc
    simp only [Option.some.injEq] at h
    rw [hc, h]
  · simp at h

variable {ds r : List Char}

/-- Digits that end a line begin no date. -/
private theorem date?_digits (hds : ∀ c ∈ ds, c.isDigit = true) : date? (ds ++ '\n' :: r) = none := by
  rw [Option.eq_none_iff_forall_ne_some]
  rintro ⟨d, rest⟩ h
  simp only [date?, Option.bind_eq_bind, Option.bind_eq_some_iff] at h
  obtain ⟨⟨high, rest₁⟩, h₁, ⟨low, rest₂⟩, h₂, rest₃, h₃, -⟩ := h
  obtain ⟨a, b, e₁, ha, hb⟩ := two?_eq_some h₁
  obtain ⟨c, d, e₂, hc, hd⟩ := two?_eq_some h₂
  have e₃ := after?_eq_some h₃
  dsimp only at e₂ e₃
  have := eq_newline_of_append_eq [a, b, c, d] hds (by simp [ha, hb, hc, hd]) (by decide : '-'.isDigit = false)
    (by rw [e₁, e₂, e₃]; rfl)
  exact absurd this (by decide)

/-- Digits that end a line begin no time of day. -/
private theorem time?_digits (hds : ∀ c ∈ ds, c.isDigit = true) : time? (ds ++ '\n' :: r) = none := by
  rw [Option.eq_none_iff_forall_ne_some]
  rintro ⟨d, rest⟩ h
  simp only [time?, Option.bind_eq_bind, Option.bind_eq_some_iff] at h
  obtain ⟨⟨hour, rest₁⟩, h₁, rest₂, h₂, -⟩ := h
  obtain ⟨a, b, e₁, ha, hb⟩ := two?_eq_some h₁
  have e₂ := after?_eq_some h₂
  dsimp only at e₂
  have := eq_newline_of_append_eq [a, b] hds (by simp [ha, hb]) (by decide : ':'.isDigit = false)
    (by rw [e₁, e₂]; rfl)
  exact absurd this (by decide)

private theorem digitsWith_digits (hds : ∀ c ∈ ds, c.isDigit = true) :
    digitsWith digit? (ds ++ '\n' :: r) = (ds.map digitValue, '\n' :: r) := by
  induction ds with
  | nil => rfl
  | cons d ds ih =>
    have hd := hds d (by simp)
    have hu : d ≠ '_' := isDigit_ne hd (by decide)
    have := ih fun c hc => hds c (by simp [hc])
    simp [digitsWith, hu, digit?_of_isDigit hd, this]

/-- A decimal text begins with a digit, which is no zero unless the number is zero. -/
private theorem decimal_cons (n : Nat) :
    ∃ c cs, decimal n = c :: cs ∧ (∀ d ∈ c :: cs, d.isDigit = true) ∧ (n ≠ 0 → c ≠ '0') := by
  cases hd : decimal n with
  | nil => exact absurd hd (decimal_ne_nil n)
  | cons c cs =>
    refine ⟨c, cs, rfl, fun d hm => isDigit_of_mem_decimal (hd ▸ hm), fun hn => ?_⟩
    have := head?_decimal hn
    rw [hd] at this
    simpa using this

/-- The decimal text of a number is read as its digits. -/
private theorem whole?_decimal (n : Nat) :
    whole? (decimal n ++ '\n' :: r) = some ((decimal n).map digitValue, '\n' :: r) := by
  by_cases hn : n = 0
  · rw [hn, decimal_zero]
    rfl
  · obtain ⟨c, cs, hd, hall, hc⟩ := decimal_cons n
    have hread := digitsWith_digits (r := r) hall
    have hdigit := digit?_of_isDigit (hall c (by simp))
    rw [hd]
    unfold whole?
    split
    · rename_i heq
      exact absurd (List.cons.inj heq).1 (hc hn)
    · rw [hread.symm]
      simp [digits?, hdigit]

private theorem sign_of_isDigit {c : Char} {cs : List Char} (hc : c.isDigit = true) :
    sign (c :: cs) = (false, c :: cs) := by
  have h1 : c ≠ '-' := isDigit_ne hc (by decide)
  have h2 : c ≠ '+' := isDigit_ne hc (by decide)
  simp [sign, h1, h2]

/-- The decimal text of a number that ends its line is no double. -/
private theorem double?_decimal (n : Nat) : double? (decimal n ++ '\n' :: r) = none := by
  obtain ⟨c, cs, hd, hall, -⟩ := decimal_cons n
  have hsign : sign (decimal n ++ '\n' :: r) = (false, decimal n ++ '\n' :: r) := by
    rw [hd]
    exact sign_of_isDigit (hall c (by simp))
  have hpower : power? ('\n' :: r) = none := rfl
  simp [double?, hsign, whole?_decimal, hpower]

/-- The decimal text of a number that ends its line is an integer, if it fits into 63 bits. -/
private theorem integer?_decimal {n : Nat} (hn : n < wordCount 63) :
    integer? (decimal n ++ '\n' :: r) = some (.integer n, '\n' :: r) := by
  obtain ⟨c, cs, hd, hall, hzero⟩ := decimal_cons n
  have hsign : sign (decimal n ++ '\n' :: r) = (false, decimal n ++ '\n' :: r) := by
    rw [hd]
    exact sign_of_isDigit (hall c (by simp))
  -- a zero in front stands alone, so no prefix of another base begins here
  have hbase : ∀ x rest, decimal n ++ '\n' :: r = '0' :: x :: rest → x = '\n' := by
    intro x rest he
    by_cases h0 : n = 0
    · rw [h0, decimal_zero] at he
      exact ((List.cons.inj (List.cons.inj he).2).1).symm
    · rw [hd] at he
      exact absurd (List.cons.inj he).1 (hzero h0)
  unfold integer?
  split
  · rename_i heq
    exact absurd (hbase _ _ heq) (by decide)
  · rename_i heq
    exact absurd (hbase _ _ heq) (by decide)
  · rename_i heq
    exact absurd (hbase _ _ heq) (by decide)
  · simp [hsign, whole?_decimal, ofDigits_decimal, hn]

/-- The decimal text of a number that ends its line is read as that number, if it fits into 63 bits. -/
theorem scalar?_decimal {n : Nat} (hn : n < wordCount 63) :
    scalar? (decimal n ++ '\n' :: r) = some (.integer n, '\n' :: r) := by
  obtain ⟨c, cs, hd, hall, -⟩ := decimal_cons n
  have hc : c.isDigit = true := hall c (by simp)
  have hmoment : moment? (decimal n ++ '\n' :: r) = none := by
    rw [hd, moment?, date?_digits hall, time?_digits hall]
    rfl
  have hnamed : namedDouble? (decimal n ++ '\n' :: r) = none := by
    rw [hd, namedDouble?, List.cons_append, sign_of_isDigit hc]
    have h1 : c ≠ 'i' := isDigit_ne hc (by decide)
    have h2 : c ≠ 'n' := isDigit_ne hc (by decide)
    simp [h1, h2]
  unfold scalar?
  split
  · rename_i heq
    rw [hd] at heq
    exact absurd (List.cons.inj heq).1 (isDigit_ne hc (by decide))
  · rename_i heq
    rw [hd] at heq
    exact absurd (List.cons.inj heq).1 (isDigit_ne hc (by decide))
  · rw [hmoment, double?_decimal, hnamed, integer?_decimal hn]

end AppLauncher.Document.Toml
