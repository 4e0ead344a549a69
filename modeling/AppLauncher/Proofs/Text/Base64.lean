import AppLauncher.Proofs.Text.Characters
import AppLauncher.Text.Base64
import Mathlib.Tactic.SplitIfs

/-!
# Base64 read back

The letters of any bytes are letters of the alphabet with as many `=` behind them as the last group lacks bytes
(`encode_eq`), always in groups of four (`length_encode`), and they spell those bytes (`decode?_encode`).
-/

namespace AppLauncher.Text.Base64

/-- The sixty-four letters, each at the place of its value. -/
def alphabet : List Char := "ABCDEFGHIJKLMNOPQRSTUVWXYZabcdefghijklmnopqrstuvwxyz0123456789+/".toList

variable {n : Nat} {a b c d : Char}

/-! ### Letters -/

theorem getElem?_alphabet (h : n < 64) : alphabet[n]? = some (letter n) := by
  have all : ∀ n < 64, alphabet[n]? = some (letter n) := by decide
  exact all n h

theorem letter_mem_alphabet (h : n < 64) : letter n ∈ alphabet := List.mem_of_getElem? (getElem?_alphabet h)

private theorem toNat_lt_of_value? (h : value? c = some n) : c.toNat < 128 := by
  unfold value? at h
  split_ifs at h with hupper hlower hdigit hplus hslash
  · exact Nat.lt_of_le_of_lt (char_le_iff.1 hupper.2) (by decide)
  · exact Nat.lt_of_le_of_lt (char_le_iff.1 hlower.2) (by decide)
  · exact Nat.lt_of_le_of_lt (char_le_iff.1 hdigit.2) (by decide)
  · rw [hplus]
    decide
  · rw [hslash]
    decide

/-- The value of a letter is its place in the alphabet, and nothing else is a letter. -/
theorem value?_eq_some_iff : value? c = some n ↔ alphabet[n]? = some c := by
  constructor
  · -- no letter is beyond 127, and below 128 there are few characters
    intro h
    have all : ∀ m < 128, ∀ n ∈ value? (Char.ofNat m), alphabet[n]? = some (Char.ofNat m) := by decide +kernel
    have hc := all c.toNat (toNat_lt_of_value? h)
    rw [Char.ofNat_toNat] at hc
    exact hc n h
  · intro h
    obtain ⟨hlt, -⟩ := List.getElem?_eq_some_iff.1 h
    have all : ∀ n < 64, value? (letter n) = some n := by decide
    rw [getElem?_alphabet hlt] at h
    exact Option.some.inj h ▸ all n hlt

theorem value?_letter (h : n < 64) : value? (letter n) = some n := value?_eq_some_iff.2 (getElem?_alphabet h)

theorem letter_ne_filler (h : n < 64) : letter n ≠ '=' := by
  have all : ∀ n < 64, letter n ≠ '=' := by decide
  exact all n h

/-! ### Groups -/

/-- A group of four letters gives three bytes. -/
theorem decode?_group (hd : d ≠ '=') {i j k l : Nat} (ha : value? a = some i) (hb : value? b = some j)
    (hc : value? c = some k) (hl : value? d = some l) (rest : List Char) : decode? (a :: b :: c :: d :: rest) =
      (decode? rest).map fun bytes =>
        (i * 4 + j / 16).toUInt8 :: (j % 16 * 16 + k / 4).toUInt8 :: (k % 4 * 64 + l).toUInt8 :: bytes := by
  rw [decode?]
  · simp only [ha, hb, hc, hl, Option.bind_eq_bind, Option.bind_some]
    cases decode? rest <;> rfl
  all_goals
    intros
    contradiction

private theorem toUInt8_eq {x : UInt8} (h : n = x.toNat) : n.toUInt8 = x := by
  rw [h]
  exact UInt8.ofNat_toNat

theorem decode?_encode (bytes : List UInt8) : decode? (encode bytes) = some bytes := by
  induction bytes using encode.induct with
  | case1 => rfl
  | case2 x =>
    have hx := x.toNat_lt
    have hfirst : x.toNat / 4 < 64 := by omega
    have hsecond : x.toNat % 4 * 16 < 64 := by omega
    have hstray : x.toNat % 4 * 16 % 16 = 0 := by omega
    have hbyte : (x.toNat / 4 * 4 + x.toNat % 4 * 16 / 16).toUInt8 = x := toUInt8_eq (by omega)
    simp only [encode, decode?, value?_letter hfirst, value?_letter hsecond, Option.bind_eq_bind, Option.bind_some,
      hstray, hbyte, if_true]
  | case3 x y =>
    have hx := x.toNat_lt
    have hy := y.toNat_lt
    have hfirst : x.toNat / 4 < 64 := by omega
    have hsecond : x.toNat % 4 * 16 + y.toNat / 16 < 64 := by omega
    have hthird : y.toNat % 16 * 4 < 64 := by omega
    have hstray : y.toNat % 16 * 4 % 4 = 0 := by omega
    have hbyte : (x.toNat / 4 * 4 + (x.toNat % 4 * 16 + y.toNat / 16) / 16).toUInt8 = x := toUInt8_eq (by omega)
    have hbyte' : ((x.toNat % 4 * 16 + y.toNat / 16) % 16 * 16 + y.toNat % 16 * 4 / 4).toUInt8 = y :=
      toUInt8_eq (by omega)
    rw [encode, decode?]
    · simp only [value?_letter hfirst, value?_letter hsecond, value?_letter hthird, Option.bind_eq_bind,
        Option.bind_some, hstray, hbyte, hbyte', if_true]
    · exact letter_ne_filler hthird
  | case4 x y z r ih =>
    have hx := x.toNat_lt
    have hy := y.toNat_lt
    have hz := z.toNat_lt
    have hfirst : x.toNat / 4 < 64 := by omega
    have hsecond : x.toNat % 4 * 16 + y.toNat / 16 < 64 := by omega
    have hthird : y.toNat % 16 * 4 + z.toNat / 64 < 64 := by omega
    have hfourth : z.toNat % 64 < 64 := by omega
    have hbyte : (x.toNat / 4 * 4 + (x.toNat % 4 * 16 + y.toNat / 16) / 16).toUInt8 = x := toUInt8_eq (by omega)
    have hbyte' : ((x.toNat % 4 * 16 + y.toNat / 16) % 16 * 16 + (y.toNat % 16 * 4 + z.toNat / 64) / 4).toUInt8 = y :=
      toUInt8_eq (by omega)
    have hbyte'' : ((y.toNat % 16 * 4 + z.toNat / 64) % 4 * 64 + z.toNat % 64).toUInt8 = z := toUInt8_eq (by omega)
    rw [encode, decode?_group (letter_ne_filler hfourth) (value?_letter hfirst) (value?_letter hsecond)
      (value?_letter hthird) (value?_letter hfourth), ih, hbyte, hbyte', hbyte'']
    rfl

theorem encode_injective {bytes bytes' : List UInt8} (h : encode bytes = encode bytes') : bytes = bytes' := by
  have hdecoded := decode?_encode bytes
  rw [h, decode?_encode] at hdecoded
  exact (Option.some.inj hdecoded).symm

/-! ### The form of the text -/

/-- Behind the letters there is a `=` for each byte that the last group lacks. -/
theorem encode_eq (bytes : List UInt8) : ∃ letters, (∀ c ∈ letters, c ∈ alphabet) ∧
    encode bytes = letters ++ List.replicate ((3 - bytes.length % 3) % 3) '=' := by
  induction bytes using encode.induct with
  | case1 => exact ⟨[], by simp, rfl⟩
  | case2 x =>
    have hx := x.toNat_lt
    refine ⟨[letter (x.toNat / 4), letter (x.toNat % 4 * 16)], ?_, rfl⟩
    intro c hc
    simp only [List.mem_cons, List.not_mem_nil, or_false] at hc
    rcases hc with rfl | rfl <;> exact letter_mem_alphabet (by omega)
  | case3 x y =>
    have hx := x.toNat_lt
    have hy := y.toNat_lt
    refine ⟨[letter (x.toNat / 4), letter (x.toNat % 4 * 16 + y.toNat / 16), letter (y.toNat % 16 * 4)], ?_, rfl⟩
    intro c hc
    simp only [List.mem_cons, List.not_mem_nil, or_false] at hc
    rcases hc with rfl | rfl | rfl <;> exact letter_mem_alphabet (by omega)
  | case4 x y z r ih =>
    have hx := x.toNat_lt
    have hy := y.toNat_lt
    have hz := z.toNat_lt
    obtain ⟨letters, hletters, hr⟩ := ih
    refine ⟨letter (x.toNat / 4) :: letter (x.toNat % 4 * 16 + y.toNat / 16) ::
      letter (y.toNat % 16 * 4 + z.toNat / 64) :: letter (z.toNat % 64) :: letters, ?_, ?_⟩
    · intro c hc
      simp only [List.mem_cons] at hc
      rcases hc with rfl | rfl | rfl | rfl | hc
      · exact letter_mem_alphabet (by omega)
      · exact letter_mem_alphabet (by omega)
      · exact letter_mem_alphabet (by omega)
      · exact letter_mem_alphabet (by omega)
      · exact hletters c hc
    · have hlacking : (3 - (x :: y :: z :: r).length % 3) % 3 = (3 - r.length % 3) % 3 := by
        simp only [List.length_cons]
        omega
      rw [encode, hr, hlacking]
      rfl

/-- Every three bytes, and what is left of them, take four characters. -/
theorem length_encode (bytes : List UInt8) : (encode bytes).length = 4 * ((bytes.length + 2) / 3) := by
  induction bytes using encode.induct with
  | case1 => rfl
  | case2 x => simp [encode]
  | case3 x y => simp [encode]
  | case4 x y z r ih =>
    simp only [encode, List.length_cons, ih]
    omega

end AppLauncher.Text.Base64
