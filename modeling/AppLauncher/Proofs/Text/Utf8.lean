import AppLauncher.Proofs.Text.Characters
import AppLauncher.Text.Utf8
import Mathlib.Tactic.SplitIfs

/-!
# UTF-8 read back

The bytes of a text spell that text (`decode?_ofString`).
-/

namespace AppLauncher.Text.Utf8

private theorem ofNat_lt_iff {m : Nat} (hm : m < 256) {k : UInt8} {n : Nat} (hk : k.toNat = n) :
    UInt8.ofNat m < k ↔ m < n := by
  rw [UInt8.lt_iff_toNat_lt, UInt8.toNat_ofNat_of_lt' hm, hk]

/-- A continuation byte gives its six bits back. -/
private theorem tail?_ofNat (n : Nat) : tail? (UInt8.ofNat (n % 64 + 128)) = some (n % 64) := by
  have hm : n % 64 + 128 < 256 := by omega
  have hlow : ¬ UInt8.ofNat (n % 64 + 128) < 0x80 := by
    rw [ofNat_lt_iff hm (n := 128) rfl]
    omega
  have hhigh : UInt8.ofNat (n % 64 + 128) < 0xC0 := by
    rw [ofNat_lt_iff hm (n := 192) rfl]
    omega
  rw [tail?, if_pos ⟨UInt8.not_lt.1 hlow, hhigh⟩, UInt8.toNat_ofNat_of_lt' hm, Nat.add_sub_cancel]

private theorem scalar?_toNat {c : Char} (least n : Nat) (hn : n = c.toNat) (hleast : least ≤ n) :
    scalar? least n = some c := by
  subst hn
  rw [scalar?, if_pos ⟨hleast, c.valid⟩, Char.ofNat_toNat]

/-- The bytes of a character are read as that character. -/
theorem next?_utf8EncodeChar (c : Char) (rest : List UInt8) :
    next? (String.utf8EncodeChar c ++ rest) = some (c, rest) := by
  have hvalid : c.toNat < 0xD800 ∨ (0xDFFF < c.toNat ∧ c.toNat < 0x110000) := c.valid
  have hlt : c.toNat < 0x110000 := by omega
  unfold String.utf8EncodeChar
  rw [show c.val.toNat = c.toNat from rfl]
  dsimp only
  split_ifs with h1 h2 h3
  · have ha : UInt8.ofNat c.toNat < 0x80 := (ofNat_lt_iff (by omega) rfl).2 (by omega : c.toNat < 128)
    simp only [List.cons_append, List.nil_append, next?]
    rw [if_pos ha, UInt8.toNat_ofNat_of_lt' (by omega : c.toNat < 256), Char.ofNat_toNat]
  · have hm : c.toNat / 64 % 32 + 192 < 256 := by omega
    have hscalar := scalar?_toNat (c := c) 0x80 ((c.toNat / 64 % 32 + 192 - 0xC0) * 64 + c.toNat % 64)
      (by omega) (by omega)
    simp only [List.cons_append, List.nil_append]
    rw [next?, if_neg (by rw [ofNat_lt_iff hm (n := 128) rfl]; omega),
      if_neg (by rw [ofNat_lt_iff hm (n := 192) rfl]; omega),
      if_pos (by rw [ofNat_lt_iff hm (n := 224) rfl]; omega)]
    simp only [tail?_ofNat, UInt8.toNat_ofNat_of_lt' hm, Option.bind_eq_bind, Option.bind_some, hscalar]
    rfl
  · have hm : c.toNat / 4096 % 16 + 224 < 256 := by omega
    have hscalar := scalar?_toNat (c := c) 0x800
      (((c.toNat / 4096 % 16 + 224 - 0xE0) * 64 + c.toNat / 64 % 64) * 64 + c.toNat % 64) (by omega) (by omega)
    simp only [List.cons_append, List.nil_append]
    rw [next?, if_neg (by rw [ofNat_lt_iff hm (n := 128) rfl]; omega),
      if_neg (by rw [ofNat_lt_iff hm (n := 192) rfl]; omega),
      if_neg (by rw [ofNat_lt_iff hm (n := 224) rfl]; omega),
      if_pos (by rw [ofNat_lt_iff hm (n := 240) rfl]; omega)]
    simp only [tail?_ofNat, UInt8.toNat_ofNat_of_lt' hm, Option.bind_eq_bind, Option.bind_some, hscalar]
    rfl
  · have hm : c.toNat / 262144 % 8 + 240 < 256 := by omega
    have hscalar := scalar?_toNat (c := c) 0x10000
      ((((c.toNat / 262144 % 8 + 240 - 0xF0) * 64 + c.toNat / 4096 % 64) * 64 + c.toNat / 64 % 64) * 64 +
        c.toNat % 64) (by omega) (by omega)
    simp only [List.cons_append, List.nil_append]
    rw [next?, if_neg (by rw [ofNat_lt_iff hm (n := 128) rfl]; omega),
      if_neg (by rw [ofNat_lt_iff hm (n := 192) rfl]; omega),
      if_neg (by rw [ofNat_lt_iff hm (n := 224) rfl]; omega),
      if_neg (by rw [ofNat_lt_iff hm (n := 240) rfl]; omega),
      if_pos (by rw [ofNat_lt_iff hm (n := 248) rfl]; omega)]
    simp only [tail?_ofNat, UInt8.toNat_ofNat_of_lt' hm, Option.bind_eq_bind, Option.bind_some, hscalar]
    rfl

private theorem decodeLoop_encode (cs done : List Char) {n : Nat} (hn : (encode cs).length ≤ n) :
    decodeLoop n (encode cs) done = some (done.reverse ++ cs) := by
  induction cs generalizing done n with
  | nil => cases n <;> simp [encode, decodeLoop]
  | cons c cs ih =>
    have hencode : encode (c :: cs) = String.utf8EncodeChar c ++ encode cs := by
      rw [encode, encode, List.flatMap_cons]
    have hpos : 0 < (String.utf8EncodeChar c).length := by
      rw [String.length_utf8EncodeChar]
      exact c.utf8Size_pos
    rw [hencode, List.length_append] at hn
    obtain ⟨m, rfl⟩ : ∃ m, n = m + 1 := ⟨n - 1, by omega⟩
    rw [hencode, decodeLoop, next?_utf8EncodeChar]
    · dsimp only
      rw [ih (c :: done) (by omega)]
      simp
    · intro heq
      rw [List.append_eq_nil_iff] at heq
      simp [heq.1] at hpos

/-- The bytes of a string spell that string. -/
theorem decode?_ofString (s : String) : decode? (ofString s) = some s.toList := by
  rw [decode?, ofString, decodeLoop_encode _ _ (Nat.le_refl _)]
  rfl

end AppLauncher.Text.Utf8
