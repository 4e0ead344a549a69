import AppLauncher.Proofs.Storage.Paths
import AppLauncher.Proofs.Text.Characters

/-!
# Addresses of the internet as texts

An IPv4 address is four decimal numbers with points between them (`ipv4?`).  An IPv6 address is eight groups of
hexadecimal digits with colons between them, where two colons may stand once for all groups that are missing, and an
IPv4 address at the end for the last two (`ipv6?`).  The first has only digits and points, the second only hexadecimal
digits, points and colons (`isNumeric_of_ipv4?`, `isNumeric_of_ipv6?`), at least one colon among them
(`colon_mem_of_ipv6?`).
-/

namespace AppLauncher.Address

open AppLauncher.Storage AppLauncher.Text

/-- A part of an IPv4 address: a decimal number of eight bits, without zeros in front. -/
def octet? (cs : List Char) : Option Nat :=
  match natOf? cs with
  | some n => if n < 256 ∧ decimal n = cs then some n else none
  | none => none

/-- The four numbers of an IPv4 address. -/
def ipv4? (cs : List Char) : Option (Nat × Nat × Nat × Nat) :=
  match (splitAll (· == '.') cs).mapM octet? with
  | some [a, b, c, d] => some (a, b, c, d)
  | _ => none

/-- A group of an IPv6 address: one to four hexadecimal digits. -/
def group? (cs : List Char) : Option Nat :=
  if cs = [] ∨ 4 < cs.length then none else (cs.mapM hexDigit?).map (ofDigits 16 0)

/-- The groups that the last part of an IPv6 address spells: one, or two if it is an IPv4 address. -/
def lastGroups? (cs : List Char) : Option (List Nat) :=
  match ipv4? cs with
  | some (a, b, c, d) => some [a * 256 + b, c * 256 + d]
  | none => (group? cs).map fun g => [g]

/-- The groups of parts, the last of which may be an IPv4 address. -/
def groupsOf? : List (List Char) → Option (List Nat)
  | [] => some []
  | [part] => lastGroups? part
  | part :: next :: parts =>
    match group? part, groupsOf? (next :: parts) with
    | some g, some gs => some (g :: gs)
    | _, _ => none

/-- The groups of an address that is written without a gap, or of what stands behind its gap. -/
def groups? (cs : List Char) : Option (List Nat) :=
  if cs = [] then some [] else groupsOf? (splitAll (· == ':') cs)

/-- The groups of what stands before a gap; an IPv4 address would not be at the end. -/
def frontGroups? (cs : List Char) : Option (List Nat) :=
  if cs = [] then some [] else (splitAll (· == ':') cs).mapM group?

/-- What stands before and behind the first two colons in a row. -/
def cutGap : List Char → Option (List Char × List Char)
  | [] => none
  | c :: rest =>
    if c = ':' ∧ rest.head? = some ':' then some ([], rest.tail)
    else (cutGap rest).map fun p => (c :: p.1, p.2)

/-- The eight groups of an IPv6 address; a gap stands for one group at least. -/
def ipv6? (cs : List Char) : Option (List Nat) :=
  match cutGap cs with
  | some (front, back) =>
    match frontGroups? front, groups? back with
    | some gs, some hs =>
      if gs.length + hs.length ≤ 7 then some (gs ++ List.replicate (8 - (gs.length + hs.length)) 0 ++ hs) else none
    | _, _ => none
  | none =>
    match groups? cs with
    | some gs => if gs.length = 8 then some gs else none
    | none => none

/-! ### The characters of an address -/

/-- The characters that numeric addresses are written with. -/
def IsNumeric (c : Char) : Prop := (hexDigit? c).isSome = true ∨ c = '.' ∨ c = ':'

variable {cs : List Char} {p : Char → Bool} {P : Char → Prop}

theorem forall_of_splitAll (hp : ∀ c, p c = true → P c) (h : ∀ part ∈ splitAll p cs, ∀ c ∈ part, P c) :
    ∀ c ∈ cs, P c := by
  induction cs with
  | nil => simp
  | cons d cs ih =>
    cases hparts : splitAll p cs with
    | nil => simp [splitAll, hparts] at h ih; simpa using ⟨h, ih⟩
    | cons part parts =>
      rw [hparts] at ih
      by_cases hd : p d = true
      · rw [splitAll, hparts] at h
        simp only [hd, if_true, List.mem_cons, forall_eq_or_imp] at h
        exact List.forall_mem_cons.2 ⟨hp d hd, ih (List.forall_mem_cons.2 h.2)⟩
      · rw [splitAll, hparts] at h
        simp only [hd, if_false, List.mem_cons, forall_eq_or_imp, Bool.false_eq_true] at h
        exact List.forall_mem_cons.2 ⟨h.1.1, ih (List.forall_mem_cons.2 ⟨h.1.2, h.2⟩)⟩

/-- Everything that is read one by one is read. -/
theorem exists_of_mapM {α β : Type} {f : α → Option β} {xs : List α} {ys : List β} (h : xs.mapM f = some ys) :
    ∀ x ∈ xs, ∃ y, f x = some y := by
  induction xs generalizing ys with
  | nil => simp
  | cons x xs ih =>
    simp only [List.mapM_cons, Option.bind_eq_bind, Option.bind_eq_some_iff] at h
    obtain ⟨y, hy, zs, hzs, -⟩ := h
    exact List.forall_mem_cons.2 ⟨⟨y, hy⟩, ih hzs⟩

theorem isNumeric_of_isDigit {c : Char} (h : c.isDigit = true) : IsNumeric c := by
  have hc := Char.isDigit_iff_toNat.1 h
  refine Or.inl ?_
  rw [hexDigit?, if_pos ⟨char_le_iff.2 hc.1, char_le_iff.2 hc.2⟩]
  rfl

theorem isDigit_of_octet? {n : Nat} (h : octet? cs = some n) : ∀ c ∈ cs, c.isDigit = true := by
  unfold octet? at h
  split at h
  · split at h
    · rename_i hn
      intro c hc
      exact isDigit_of_mem_decimal (hn.2 ▸ hc)
    · cases h
  · cases h

/-- An IPv4 address has only digits and points. -/
theorem isDigit_or_of_ipv4? {a : Nat × Nat × Nat × Nat} (h : ipv4? cs = some a) :
    ∀ c ∈ cs, c.isDigit = true ∨ c = '.' := by
  unfold ipv4? at h
  split at h
  · rename_i hparts
    refine forall_of_splitAll (p := (· == '.')) (fun c hc => Or.inr (by simpa using hc)) fun part hpart c hc => ?_
    obtain ⟨n, hn⟩ := exists_of_mapM hparts part hpart
    exact Or.inl (isDigit_of_octet? hn c hc)
  · cases h

theorem isNumeric_of_group? {g : Nat} (h : group? cs = some g) : ∀ c ∈ cs, IsNumeric c := by
  unfold group? at h
  split at h
  · cases h
  · obtain ⟨ds, hds, -⟩ := Option.map_eq_some_iff.1 h
    intro c hc
    obtain ⟨d, hd⟩ := exists_of_mapM hds c hc
    exact Or.inl (by rw [hd]; rfl)

theorem length_lastGroups? {gs : List Nat} (h : lastGroups? cs = some gs) : gs.length ≤ 2 := by
  unfold lastGroups? at h
  split at h
  · obtain rfl := Option.some.inj h
    exact Nat.le_refl 2
  · obtain ⟨g, -, rfl⟩ := Option.map_eq_some_iff.1 h
    exact Nat.le_succ 1

theorem isNumeric_of_lastGroups? {gs : List Nat} (h : lastGroups? cs = some gs) : ∀ c ∈ cs, IsNumeric c := by
  unfold lastGroups? at h
  split at h
  · rename_i hv4
    intro c hc
    exact (isDigit_or_of_ipv4? hv4 c hc).elim isNumeric_of_isDigit fun hpoint => Or.inr (Or.inl hpoint)
  · obtain ⟨g, hg, -⟩ := Option.map_eq_some_iff.1 h
    exact isNumeric_of_group? hg

private theorem isNumeric_of_colon (c : Char) (h : (c == ':') = true) : IsNumeric c :=
  Or.inr (Or.inr (by simpa using h))

theorem isNumeric_of_groupsOf? {parts : List (List Char)} {gs : List Nat} (h : groupsOf? parts = some gs) :
    ∀ part ∈ parts, ∀ c ∈ part, IsNumeric c := by
  fun_induction groupsOf? parts generalizing gs with
  | case1 => simp
  | case2 part => simpa using isNumeric_of_lastGroups? h
  | case3 part next parts g gs' hgs hg ih => exact List.forall_mem_cons.2 ⟨isNumeric_of_group? hg, ih hgs⟩
  | case4 => cases h

theorem isNumeric_of_groups? {gs : List Nat} (h : groups? cs = some gs) : ∀ c ∈ cs, IsNumeric c := by
  unfold groups? at h
  split at h
  · rename_i hnil
    simp [hnil]
  · exact forall_of_splitAll isNumeric_of_colon (isNumeric_of_groupsOf? h)

theorem isNumeric_of_frontGroups? {gs : List Nat} (h : frontGroups? cs = some gs) : ∀ c ∈ cs, IsNumeric c := by
  unfold frontGroups? at h
  split at h
  · rename_i hnil
    simp [hnil]
  · refine forall_of_splitAll isNumeric_of_colon fun part hpart => ?_
    obtain ⟨g, hg⟩ := exists_of_mapM h part hpart
    exact isNumeric_of_group? hg

theorem eq_of_cutGap {front back : List Char} (h : cutGap cs = some (front, back)) :
    cs = front ++ ':' :: ':' :: back := by
  induction cs generalizing front with
  | nil => cases h
  | cons c cs ih =>
    unfold cutGap at h
    split at h
    · rename_i hc
      obtain ⟨rfl, hhead⟩ := hc
      obtain ⟨rfl, rfl⟩ := Prod.mk.inj (Option.some.inj h)
      obtain ⟨rest, rfl⟩ := List.head?_eq_some_iff.1 hhead
      rfl
    · obtain ⟨p, hp, hpair⟩ := Option.map_eq_some_iff.1 h
      obtain ⟨rfl, rfl⟩ := Prod.mk.inj hpair
      rw [List.cons_append, ← ih hp]

/-- An IPv6 address has only hexadecimal digits, points and colons. -/
theorem isNumeric_of_ipv6? {gs : List Nat} (h : ipv6? cs = some gs) : ∀ c ∈ cs, IsNumeric c := by
  unfold ipv6? at h
  split at h
  · rename_i front back hcut
    split at h
    · rename_i gs hs hfront hback
      rw [eq_of_cutGap hcut]
      intro c hc
      simp only [List.mem_append, List.mem_cons] at hc
      rcases hc with hc | rfl | rfl | hc
      · exact isNumeric_of_frontGroups? hfront c hc
      · exact Or.inr (Or.inr rfl)
      · exact Or.inr (Or.inr rfl)
      · exact isNumeric_of_groups? hback c hc
    · cases h
  · split at h
    · rename_i hgroups
      exact isNumeric_of_groups? hgroups
    · cases h

/-- A text without a colon spells at most two groups, so an IPv6 address has one. -/
theorem colon_mem_of_ipv6? {gs : List Nat} (h : ipv6? cs = some gs) : ':' ∈ cs := by
  unfold ipv6? at h
  split at h
  · rename_i front back hcut
    rw [eq_of_cutGap hcut]
    simp
  · split at h
    · rename_i hs hgroups
      split at h
      · rename_i hlength
        by_contra hcolon
        have hparts : splitAll (· == ':') cs = [cs] := by
          refine splitAll_of_forall fun c hc => beq_eq_false_iff_ne.2 ?_
          rintro rfl
          exact hcolon hc
        unfold groups? at hgroups
        split at hgroups
        · obtain rfl := Option.some.inj hgroups
          cases hlength
        · rw [hparts] at hgroups
          have := length_lastGroups? hgroups
          omega
      · cases h
    · cases h

end AppLauncher.Address
