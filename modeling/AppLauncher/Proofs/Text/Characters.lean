import AppLauncher.Text.Digits
import AppLauncher.Text.Lowercase
import AppLauncher.Text.Trim
import Mathlib.Data.List.TakeWhile

/-!
# Characters, and texts of them

Characters are compared by their numbers.  A text of lower-case characters is its own form in lower case
(`lowerString_eq_self`).  The decimal text of a number has only digits (`isDigit_of_mem_decimal`), their values spell
the number (`ofDigits_decimal`), and it begins with a zero only if the number is zero (`head?_decimal`).  It is read as
the number (`unsigned?_decimal`).  Trimming leaves nothing of a text exactly if all of it is blank (`trim_eq_nil_iff`).
-/

namespace AppLauncher.Text

/-! ### Characters by their numbers -/

theorem char_lt_iff {c d : Char} : c < d ↔ c.toNat < d.toNat := UInt32.lt_iff_toNat_lt

theorem char_le_iff {c d : Char} : c ≤ d ↔ c.toNat ≤ d.toNat := UInt32.le_iff_toNat_le

theorem char_eq_iff {c d : Char} : c = d ↔ c.toNat = d.toNat := Char.toNat_inj.symm

theorem isDigit_ne {c d : Char} (hc : c.isDigit = true) (hd : d.isDigit = false) : c ≠ d := by
  rintro rfl
  rw [hc] at hd
  exact absurd hd (by decide)

/-! ### Lower case -/

/-- A character that has no other form in lower case, whatever stands beside it. -/
def IsLower (c : Char) : Prop := c < '\u0080' ∧ ¬ ('A' ≤ c ∧ c ≤ 'Z')

theorem IsLower.lowerChar_eq {c : Char} (h : IsLower c) : lowerChar c = c := by
  rw [lowerChar, if_pos h.1, if_neg h.2]

theorem lowerAfter_eq_self {cs : List Char} (h : ∀ c ∈ cs, IsLower c) (before : List Char) :
    lowerAfter before cs = cs := by
  induction cs generalizing before with
  | nil => rfl
  | cons c r ih =>
    have hc := h c (by simp)
    -- the two characters that are treated apart lie beyond these
    have hsigma : c ≠ '\u03a3' := by
      rintro rfl
      exact absurd hc.1 (by decide)
    have hdotted : c ≠ '\u0130' := by
      rintro rfl
      exact absurd hc.1 (by decide)
    rw [lowerAfter, hc.lowerChar_eq, ih fun d hd => h d (by simp [hd])]
    · exact hsigma
    · exact hdotted

theorem lowerString_eq_self {s : String} (h : ∀ c ∈ s.toList, IsLower c) : lowerString s = s := by
  rw [lowerString, lower, lowerAfter_eq_self h, String.ofList_toList]

/-! ### Decimal texts -/

/-- The value of a character that is a decimal digit. -/
def digitValue (c : Char) : Nat := c.toNat - '0'.toNat

theorem digit?_of_isDigit {c : Char} (h : c.isDigit = true) : digit? c = some (digitValue c) := by
  rw [Char.isDigit_iff_toNat] at h
  have h0 : '0' ≤ c := char_le_iff.2 h.1
  have h9 : c ≤ '9' := char_le_iff.2 h.2
  simp [digit?, h0, h9, digitValue]

theorem isDigit_of_mem_decimal {n : Nat} {c : Char} (h : c ∈ decimal n) : c.isDigit = true :=
  Nat.isDigit_of_mem_toDigits (by decide) (by decide) h

theorem decimal_ne_nil (n : Nat) : decimal n ≠ [] := Nat.toDigits_ne_nil

/-- The digits of a decimal text spell the number. -/
theorem ofDigits_decimal (n : Nat) : ofDigits 10 0 ((decimal n).map digitValue) = n := by
  have h := Nat.ofDigitChars_ten_toDigits (n := n)
  rw [Nat.ofDigitChars_eq_foldl] at h
  rw [ofDigits, List.foldl_map]
  simpa [digitValue, decimal, Nat.mul_comm] using h

theorem decimal_zero : decimal 0 = ['0'] := rfl

/-- No zero stands in front of a decimal text. -/
theorem head?_decimal {n : Nat} (hn : n ≠ 0) : (decimal n).head? ≠ some '0' := by
  induction n using Nat.strongRecOn with
  | _ n ih =>
    by_cases hlt : n < 10
    · have hall : ∀ m < 10, m ≠ 0 → (decimal m).head? ≠ some '0' := by decide
      exact hall n hlt hn
    · have e : decimal n = decimal (n / 10) ++ [(n % 10).digitChar] :=
        Nat.toDigits_of_base_le (by decide) (by omega)
      have hrest := ih (n / 10) (by omega) (by omega)
      rw [e, List.head?_append]
      cases hd : decimal (n / 10) with
      | nil => exact absurd hd (decimal_ne_nil _)
      | cons c cs => simpa [hd] using hrest

theorem mapM_digit? {cs : List Char} (h : ∀ c ∈ cs, c.isDigit = true) :
    cs.mapM digit? = some (cs.map digitValue) := by
  induction cs with
  | nil => rfl
  | cons c cs ih =>
    have hc := digit?_of_isDigit (h c (by simp))
    have hcs := ih fun d hd => h d (by simp [hd])
    simp [List.mapM_cons, hc, hcs]

theorem natOf?_decimal (n : Nat) : natOf? (decimal n) = some n := by
  have hne : (decimal n).isEmpty = false := List.isEmpty_eq_false_iff.2 (decimal_ne_nil n)
  rw [natOf?, hne, if_neg Bool.false_ne_true, mapM_digit? fun c hc => isDigit_of_mem_decimal hc, Option.map_some,
    ofDigits_decimal]

theorem unsigned?_decimal {bound n : Nat} (h : n < bound) : unsigned? bound (decimal n) = some n := by
  cases hd : decimal n with
  | nil => exact absurd hd (decimal_ne_nil n)
  | cons c cs =>
    -- a digit stands in front, and no sign
    have hc : c ≠ '+' := isDigit_ne (isDigit_of_mem_decimal (hd ▸ List.mem_cons_self)) (by decide)
    have hread : natOf? (c :: cs) = some n := hd ▸ natOf?_decimal n
    simp [unsigned?, hc, hread, h]

/-! ### Blanks -/

theorem trim_eq_nil_iff {cs : List Char} : trim cs = [] ↔ ∀ c ∈ cs, isBlank c = true := by
  rw [trim, List.reverse_eq_nil_iff, List.dropWhile_eq_nil_iff]
  constructor
  · intro h c hc
    rw [← List.takeWhile_append_dropWhile (p := isBlank) (l := cs), List.mem_append] at hc
    rcases hc with hc | hc
    · exact List.mem_takeWhile_imp hc
    · exact h c (List.mem_reverse.2 hc)
  · intro h c hc
    exact h c ((List.dropWhile_sublist isBlank).subset (List.mem_reverse.1 hc))

end AppLauncher.Text
