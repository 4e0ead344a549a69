import AppLauncher.Proofs.Address.Literal

/-!
# URLs of the web

Behind the scheme of a URL and two slashes stands its authority, up to a slash, a question mark or a number sign: a
user before an at sign if there is one, the host, and perhaps a port behind a colon.  The host is an IPv4 address or a
name, which have no colon, or an IPv6 address in brackets (`Url.read?`).  So a host without a colon is read back from
the URL that it is written into, as is an address in brackets (`read?_named`, `read?_bracketed`), but an IPv6 address
without brackets gives no URL (`read?_unbracketed`).
-/

namespace AppLauncher.Address

open AppLauncher.Text

/-- What a server is found by. -/
inductive Host
  | name (text : List Char)
  | ipv4 (a b c d : Nat)
  | ipv6 (groups : List Nat)
  /-- An address of a kind that is not known yet. -/
  | future (text : List Char)
  deriving DecidableEq, Repr

/-- The parts of a URL. -/
structure Url where
  user : Option (List Char)
  host : Host
  port : Option Nat
  path : List Char
  query : Option (List Char)
  fragment : Option (List Char)
  deriving DecidableEq, Repr

/-! ### Reading -/

/-- What stands before the first of some character, and what stands behind it if it is there. -/
def cut (d : Char) : List Char → List Char × Option (List Char)
  | [] => ([], none)
  | c :: rest => if c = d then ([], some rest) else (c :: (cut d rest).1, (cut d rest).2)

def isHex (c : Char) : Bool := (hexDigit? c).isSome

def isUnreserved (c : Char) : Bool := c.isAlphanum || ['-', '.', '_', '~'].contains c

def isSubDelimiter (c : Char) : Bool := ['!', '$', '&', '\'', '(', ')', '*', '+', ',', ';', '='].contains c

/-- The characters that may stand as they are wherever text may. -/
def isOwn (c : Char) : Bool := isUnreserved c || isSubDelimiter c

/-- Whether a text is made of some characters and of bytes that a percent sign and two digits stand for. -/
def isEncoded (p : Char → Bool) : List Char → Bool
  | [] => true
  | '%' :: a :: b :: rest => isHex a && isHex b && isEncoded p rest
  | c :: rest => p c && isEncoded p rest

/-- The port that digits spell, if there are any. -/
def port? : List Char → Option (Option Nat)
  | [] => some none
  | cs => (natOf? cs).map some

/-- The port behind a host in brackets. -/
def portAfter? : List Char → Option (Option Nat)
  | [] => some none
  | ':' :: cs => port? cs
  | _ => none

/-- Whether a text is an address of a later version: its number and what belongs to it. -/
def isFuture : List Char → Bool
  | [] => false
  | c :: rest =>
    (c == 'v' || c == 'V') && match cut '.' rest with
      | (version, some text) =>
        !version.isEmpty && version.all isHex && !text.isEmpty && text.all fun c => isOwn c || c == ':'
      | (_, none) => false

/-- The host in brackets. -/
def literalHost? (cs : List Char) : Option Host :=
  match ipv6? cs with
  | some gs => some (.ipv6 gs)
  | none => if isFuture cs then some (.future cs) else none

/-- The host without brackets.  The web has no empty names. -/
def namedHost? (cs : List Char) : Option Host :=
  match ipv4? cs with
  | some (a, b, c, d) => some (.ipv4 a b c d)
  | none => if !cs.isEmpty && isEncoded isOwn cs then some (.name cs) else none

/-- The host and the port of an authority. -/
def hostAndPort? : List Char → Option (Host × Option Nat)
  | '[' :: rest =>
    match cut ']' rest with
    | (literal, some after) => (literalHost? literal).bind fun h => (portAfter? after).map fun p => (h, p)
    | (_, none) => none
  | cs =>
    match cut ':' cs with
    | (host, some port) => (namedHost? host).bind fun h => (port? port).map fun p => (h, p)
    | (host, none) => (namedHost? host).map fun h => (h, none)

/-- The user, the host and the port of an authority. -/
def authority? (cs : List Char) : Option (Option (List Char) × Host × Option Nat) :=
  match cut '@' cs with
  | (user, some rest) =>
    if isEncoded (fun c => isOwn c || c == ':') user then (hostAndPort? rest).map fun p => (some user, p) else none
  | (rest, none) => (hostAndPort? rest).map fun p => (none, p)

/-- Whether a character ends the authority. -/
def endsAuthority (c : Char) : Bool := ['/', '?', '#'].contains c

def isPathChar (c : Char) : Bool := isOwn c || [':', '@', '/'].contains c

def isQueryChar (c : Char) : Bool := isPathChar c || c == '?'

/-- The URL that a text is, if it is one of the web. -/
def Url.read? (cs : List Char) : Option Url :=
  let rest := cs.drop 7
  let (before, fragment) := cut '#' (rest.dropWhile fun c => !endsAuthority c)
  let (path, query) := cut '?' before
  match authority? (rest.takeWhile fun c => !endsAuthority c) with
  | some (user, host, port) =>
    if (cs.take 7).map Char.toLower = "http://".toList ∧ isEncoded isPathChar path ∧
        query.all (isEncoded isQueryChar) ∧ fragment.all (isEncoded isQueryChar) then
      some { user, host, port, path, query, fragment }
    else none
  | none => none

/-! ### Reading what was written -/

variable {cs : List Char} {d : Char} {p : Char → Bool} {n : Nat}

theorem cut_of_notMem (h : d ∉ cs) : cut d cs = (cs, none) := by
  induction cs with
  | nil => rfl
  | cons c cs ih =>
    obtain ⟨hc, hcs⟩ := not_or.1 (mt List.mem_cons.2 h)
    rw [cut, if_neg (Ne.symm hc), ih hcs]

theorem cut_append (h : d ∉ cs) (rest : List Char) : cut d (cs ++ d :: rest) = (cs, some rest) := by
  induction cs with
  | nil => rw [List.nil_append, cut, if_pos rfl]
  | cons c cs ih =>
    obtain ⟨hc, hcs⟩ := not_or.1 (mt List.mem_cons.2 h)
    rw [List.cons_append, cut, if_neg (Ne.symm hc), ih hcs]

theorem isEncoded_of_forall (h : ∀ c ∈ cs, p c = true) (hp : p '%' = false) : isEncoded p cs = true := by
  fun_induction isEncoded p cs with
  | case1 => rfl
  | case2 a b rest ih =>
    have hpercent := h '%' List.mem_cons_self
    rw [hp] at hpercent
    cases hpercent
  | case3 c rest _ ih =>
    obtain ⟨hc, hrest⟩ := List.forall_mem_cons.1 h
    rw [hc, ih hrest, Bool.and_self]

theorem port?_decimal (n : Nat) : port? (decimal n) = some (some n) := by
  cases hd : decimal n with
  | nil => exact absurd hd (decimal_ne_nil n)
  | cons c cs =>
    have hread : natOf? (c :: cs) = some n := hd ▸ natOf?_decimal n
    rw [port?, hread, Option.map_some]
    simp

/-- A text with a colon in it is no port. -/
theorem port?_of_colon_mem (h : ':' ∈ cs) : port? cs = none := by
  have hread : natOf? cs = none := by
    refine Option.eq_none_iff_forall_ne_some.2 fun n hn => ?_
    unfold natOf? at hn
    split at hn
    · cases hn
    · obtain ⟨ds, hds, -⟩ := Option.map_eq_some_iff.1 hn
      obtain ⟨k, hk⟩ := exists_of_mapM hds ':' h
      cases hk
  cases cs with
  | nil => cases h
  | cons c cs => rw [port?, hread, Option.map_none]; simp

/-- The characters that no host and no port are written with. -/
def isSeparator (c : Char) : Bool := endsAuthority c || c == '@'

private theorem isSeparator_of {P : Char → Prop} (hnone : ¬ P '/' ∧ ¬ P '?' ∧ ¬ P '#' ∧ ¬ P '@') {c : Char}
    (h : P c) : isSeparator c = false := by
  have hne : ∀ d, ¬ P d → c ≠ d := by
    rintro d hd rfl
    exact hd h
  obtain ⟨hslash, hquestion, hnumber, hat⟩ := hnone
  simp [isSeparator, endsAuthority, hne _ hslash, hne _ hquestion, hne _ hnumber, hne _ hat]

theorem isSeparator_of_isNumeric {c : Char} (h : IsNumeric c) : isSeparator c = false :=
  isSeparator_of (by unfold IsNumeric; decide) h

theorem isSeparator_of_isOwn {c : Char} (h : isOwn c = true) : isSeparator c = false :=
  isSeparator_of (P := fun c => isOwn c = true) (by decide) h

/-- A URL that has only a host and a port behind its scheme is read as these are. -/
theorem read?_http (h : ∀ c ∈ cs, isSeparator c = false) (n : Nat) :
    Url.read? ("http://".toList ++ (cs ++ ':' :: decimal n)) =
      (hostAndPort? (cs ++ ':' :: decimal n)).map fun a => ⟨none, a.1, a.2, [], none, none⟩ := by
  have hall : ∀ c ∈ cs ++ ':' :: decimal n, isSeparator c = false := by
    intro c hc
    rw [List.mem_append, List.mem_cons] at hc
    rcases hc with hc | rfl | hc
    · exact h c hc
    · decide
    · exact isSeparator_of_isNumeric (isNumeric_of_isDigit (isDigit_of_mem_decimal hc))
  generalize cs ++ ':' :: decimal n = text at hall
  have hat : '@' ∉ text := fun hmem => absurd (hall '@' hmem) (by decide)
  have hends : ∀ c ∈ text, (!endsAuthority c) = true := by
    intro c hc
    have hc := hall c hc
    rw [isSeparator, Bool.or_eq_false_iff] at hc
    rw [hc.1, Bool.not_false]
  have hdrop : ("http://".toList ++ text).drop 7 = text := rfl
  have htake : (("http://".toList ++ text).take 7).map Char.toLower = "http://".toList := by
    show List.map Char.toLower "http://".toList = _
    decide
  have hwhile : text.takeWhile (fun c => !endsAuthority c) = text := List.takeWhile_eq_self_iff.2 hends
  have hbehind : text.dropWhile (fun c => !endsAuthority c) = [] := List.dropWhile_eq_nil_iff.2 hends
  have hauthority : authority? text = (hostAndPort? text).map fun a => (none, a) := by
    rw [authority?, cut_of_notMem hat]
  unfold Url.read?
  simp only [hdrop, htake, hwhile, hbehind, hauthority]
  cases hostAndPort? text <;> simp [cut, isEncoded]

/-- A host without brackets ends at its first colon. -/
theorem hostAndPort?_append {front : List Char} (hbracket : '[' ∉ front) (hcolon : ':' ∉ front) (port : List Char) :
    hostAndPort? (front ++ ':' :: port) = (namedHost? front).bind fun h => (port? port).map fun p => (h, p) := by
  have hhead : ∀ rest, front ++ ':' :: port ≠ '[' :: rest := by
    intro rest heq
    cases front with
    | nil => exact absurd (List.cons.inj heq).1 (by decide)
    | cons c front => exact hbracket ((List.cons.inj heq).1 ▸ List.mem_cons_self)
  rw [hostAndPort?, cut_append hcolon]
  exact hhead

/-- A host of characters that may stand as they are is read as a name or an IPv4 address, with its port. -/
theorem read?_named (h : ∀ c ∈ cs, isOwn c = true) (n : Nat) :
    Url.read? ("http://".toList ++ (cs ++ ':' :: decimal n)) =
      (namedHost? cs).map fun host => ⟨none, host, some n, [], none, none⟩ := by
  have hcolon : ':' ∉ cs := fun hmem => absurd (h ':' hmem) (by decide)
  have hbracket : '[' ∉ cs := fun hmem => absurd (h '[' hmem) (by decide)
  rw [read?_http fun c hc => isSeparator_of_isOwn (h c hc), hostAndPort?_append hbracket hcolon, port?_decimal]
  cases namedHost? cs <;> rfl

/-- An IPv6 address in brackets is read back, with its port. -/
theorem read?_bracketed {gs : List Nat} (h : ipv6? cs = some gs) (n : Nat) :
    Url.read? ("http://".toList ++ ('[' :: cs ++ [']'] ++ ':' :: decimal n)) =
      some ⟨none, .ipv6 gs, some n, [], none, none⟩ := by
  have hnumeric := isNumeric_of_ipv6? h
  have hsep : ∀ c ∈ '[' :: cs ++ [']'], isSeparator c = false := by
    intro c hc
    rw [List.cons_append, List.mem_cons, List.mem_append, List.mem_singleton] at hc
    rcases hc with rfl | hc | rfl
    · decide
    · exact isSeparator_of_isNumeric (hnumeric c hc)
    · decide
  have hclosing : ']' ∉ cs := fun hmem => absurd (hnumeric ']' hmem) (by unfold IsNumeric; decide)
  rw [read?_http hsep, List.append_assoc, List.singleton_append, List.cons_append, hostAndPort?, cut_append hclosing]
  simp [literalHost?, h, portAfter?, port?_decimal]

example : Url.read? "http://[2001:db8::192.0.2.1]:80".toList =
    some ⟨none, .ipv6 [0x2001, 0xdb8, 0, 0, 0, 0, 0xc000, 0x201], some 80, [], none, none⟩ := by
  decide

/-- An IPv6 address without brackets gives no URL: what stands behind its first colon is no port. -/
theorem read?_unbracketed {gs : List Nat} (h : ipv6? cs = some gs) (n : Nat) :
    Url.read? ("http://".toList ++ (cs ++ ':' :: decimal n)) = none := by
  have hnumeric := isNumeric_of_ipv6? h
  obtain ⟨front, back, rfl, hcolon⟩ := List.eq_append_cons_of_mem (colon_mem_of_ipv6? h)
  have hbracket : '[' ∉ front := fun hmem =>
    absurd (hnumeric '[' (List.mem_append_left _ hmem)) (by unfold IsNumeric; decide)
  have hport : port? (back ++ ':' :: decimal n) = none := port?_of_colon_mem (by simp)
  rw [read?_http fun c hc => isSeparator_of_isNumeric (hnumeric c hc), List.append_assoc, List.cons_append,
    hostAndPort?_append hbracket hcolon, hport]
  simp

end AppLauncher.Address
