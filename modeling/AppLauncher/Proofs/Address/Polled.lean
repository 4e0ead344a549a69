import AppLauncher.Config.Derived
import AppLauncher.Proofs.Address.Url

/-!
# The server that is polled and the server that is loaded

The probe splits its address at the last colon.  The port stands behind it, and before it a host that can be looked up:
an IPv4 address, an IPv6 address with or without brackets, or a name of the domain system (`polled?`).  A host that the
settings name is found again in that way with their port (`polled?_socketAddress`).  Their URL names the same server,
but for one kind of host: an IPv6 address without brackets is known to the probe, while a URL needs the brackets and is
none without them (`url_names_polled`).  Addresses with a zone are beyond the grammar of URLs and left out.
-/

namespace AppLauncher.Address

open AppLauncher.Storage AppLauncher.Text

/-! ### Hosts that can be looked up -/

def isLabelChar (c : Char) : Bool := c.isAlphanum || c == '-' || c == '_'

/-- A part of a domain name. -/
def isLabel (cs : List Char) : Bool := !cs.isEmpty && cs.length ≤ 63 && cs.all isLabelChar

/-- Whether a text is labels with points between them. -/
def isDotted (cs : List Char) : Bool := cs.length ≤ 253 && (splitAll (· == '.') cs).all isLabel

/-- Whether a text is a name of the domain system; a point may stand behind the last label. -/
def isName (cs : List Char) : Bool := if cs.getLast? = some '.' then isDotted cs.dropLast else isDotted cs

/-- The address in brackets. -/
def bracketed? : List Char → Option (List Nat)
  | '[' :: rest => if rest.getLast? = some ']' then ipv6? rest.dropLast else none
  | _ => none

/-- The host that a text spells. -/
def Host.spelled? (cs : List Char) : Option Host :=
  match ipv6? cs, bracketed? cs, ipv4? cs with
  | some gs, _, _ => some (.ipv6 gs)
  | none, some gs, _ => some (.ipv6 gs)
  | none, none, some (a, b, c, d) => some (.ipv4 a b c d)
  | none, none, none => if isName cs then some (.name cs) else none

/-- What stands before the last of some character and what stands behind it. -/
def cutLast? (d : Char) : List Char → Option (List Char × List Char)
  | [] => none
  | c :: rest =>
    match cutLast? d rest with
    | some (front, back) => some (c :: front, back)
    | none => if c = d then some ([], rest) else none

/-- The host and the port that the probe connects to. -/
def polled? (address : String) : Option (Host × Nat) :=
  match cutLast? ':' address.toList with
  | some (host, port) => (Host.spelled? host).bind fun h => (unsigned? (wordCount 16) port).map fun n => (h, n)
  | none => none

/-! ### Splitting a socket address -/

variable {cs rest : List Char} {d : Char}

theorem cutLast?_of_notMem (h : d ∉ cs) : cutLast? d cs = none := by
  induction cs with
  | nil => rfl
  | cons c cs ih =>
    obtain ⟨hc, hcs⟩ := not_or.1 (mt List.mem_cons.2 h)
    rw [cutLast?, ih hcs]
    exact if_neg (Ne.symm hc)

theorem cutLast?_append (h : d ∉ rest) (cs : List Char) : cutLast? d (cs ++ d :: rest) = some (cs, rest) := by
  induction cs with
  | nil =>
    rw [List.nil_append, cutLast?, cutLast?_of_notMem h]
    exact if_pos rfl
  | cons c cs ih => rw [List.cons_append, cutLast?, ih]

theorem polled?_socketAddress (s : ServerSettings) :
    polled? s.socketAddress = (Host.spelled? s.host.toList).map fun h => (h, s.port.toNat) := by
  have htext : s.socketAddress.toList = s.host.toList ++ ':' :: decimal s.port.toNat := by
    simp [ServerSettings.socketAddress, portText]
  have hcolon : ':' ∉ decimal s.port.toNat := fun h => absurd (isDigit_of_mem_decimal h) (by decide)
  have hport : unsigned? (wordCount 16) (decimal s.port.toNat) = some s.port.toNat :=
    unsigned?_decimal s.port.toNat_lt
  rw [polled?, htext, cutLast?_append hcolon]
  simp only [hport, Option.map_some]
  cases Host.spelled? s.host.toList <;> rfl

example : polled? ({ host := "fe80::2", port := 80 } : ServerSettings).socketAddress =
    some (.ipv6 [0xfe80, 0, 0, 0, 0, 0, 0, 2], 80) := by
  decide

/-! ### The characters of a host -/

theorem isOwn_of_isLabelChar {c : Char} (h : isLabelChar c = true) : isOwn c = true := by
  rw [isLabelChar, Bool.or_eq_true, Bool.or_eq_true, beq_iff_eq, beq_iff_eq] at h
  rcases h with (h | rfl) | rfl
  · simp [isOwn, isUnreserved, h]
  · decide
  · decide

theorem isOwn_of_isDotted (h : isDotted cs = true) : ∀ c ∈ cs, isOwn c = true := by
  rw [isDotted, Bool.and_eq_true, List.all_eq_true] at h
  refine forall_of_splitAll (p := (· == '.')) (fun c hc => ?_) fun part hpart c hc => ?_
  · obtain rfl := beq_iff_eq.1 hc
    decide
  · have hlabel := h.2 part hpart
    rw [isLabel, Bool.and_eq_true, List.all_eq_true] at hlabel
    exact isOwn_of_isLabelChar (hlabel.2 c hc)

/-- The characters of a name may stand in a URL as they are. -/
theorem isOwn_of_isName (h : isName cs = true) : ∀ c ∈ cs, isOwn c = true := by
  unfold isName at h
  split at h
  · rename_i hlast
    obtain ⟨front, rfl⟩ := List.getLast?_eq_some_iff.1 hlast
    rw [List.dropLast_concat] at h
    intro c hc
    rcases List.mem_append.1 hc with hc | hc
    · exact isOwn_of_isDotted h c hc
    · obtain rfl := List.mem_singleton.1 hc
      decide
  · exact isOwn_of_isDotted h

theorem isOwn_of_ipv4? {a : Nat × Nat × Nat × Nat} (h : ipv4? cs = some a) : ∀ c ∈ cs, isOwn c = true := by
  intro c hc
  rcases isDigit_or_of_ipv4? h c hc with hdigit | rfl
  · simp [isOwn, isUnreserved, Char.isAlphanum, hdigit]
  · decide

theorem namedHost?_of_isName (hv4 : ipv4? cs = none) (h : isName cs = true) : namedHost? cs = some (.name cs) := by
  have hempty : cs.isEmpty = false := by
    refine List.isEmpty_eq_false_iff.2 ?_
    rintro rfl
    exact absurd h (by decide)
  have hencoded : isEncoded isOwn cs = true := isEncoded_of_forall (isOwn_of_isName h) (by decide)
  simp [namedHost?, hv4, hempty, hencoded]

theorem eq_of_bracketed? {gs : List Nat} (h : bracketed? cs = some gs) :
    ∃ literal, cs = '[' :: literal ++ [']'] ∧ ipv6? literal = some gs := by
  unfold bracketed? at h
  split at h
  · split at h
    · rename_i hlast
      obtain ⟨literal, rfl⟩ := List.getLast?_eq_some_iff.1 hlast
      rw [List.dropLast_concat] at h
      exact ⟨literal, rfl, h⟩
    · cases h
  · cases h

/-! ### One server -/

/-- What a text spells is read back from the URL of it, unless it is an IPv6 address without brackets. -/
theorem read?_spelled {host : Host} (h : Host.spelled? cs = some host) (hv6 : ipv6? cs = none) (n : Nat) :
    Url.read? ("http://".toList ++ (cs ++ ':' :: decimal n)) = some ⟨none, host, some n, [], none, none⟩ := by
  rw [Host.spelled?, hv6] at h
  cases hbracketed : bracketed? cs with
  | some gs =>
    simp only [hbracketed, Option.some.injEq] at h
    subst h
    obtain ⟨literal, rfl, hliteral⟩ := eq_of_bracketed? hbracketed
    exact read?_bracketed hliteral n
  | none =>
    cases hv4 : ipv4? cs with
    | some a =>
      simp only [hbracketed, hv4, Option.some.injEq] at h
      subst h
      rw [read?_named (isOwn_of_ipv4? hv4), namedHost?, hv4]
      rfl
    | none =>
      simp only [hbracketed, hv4, Option.ite_none_right_eq_some, Option.some.injEq] at h
      obtain ⟨hname, rfl⟩ := h
      rw [read?_named (isOwn_of_isName hname), namedHost?_of_isName hv4 hname]
      rfl

/-- The URL and the polled address of the settings name the same server and port, unless the host is an IPv6 address
without brackets; then the probe finds a server, and the URL, which lacks the brackets, is none. -/
theorem url_names_polled {r : ReadinessSettings} {s : ServerSettings} {address : String} {interval timeout : Duration}
    {host : Host} {port : Nat} (hprobe : r.probe s = .port address interval timeout)
    (hpolled : polled? address = some (host, port)) :
    port = s.port.toNat ∧
      (ipv6? s.host.toList = none → Url.read? s.url.toList = some ⟨none, host, some port, [], none, none⟩) ∧
      ∀ gs, ipv6? s.host.toList = some gs → host = .ipv6 gs ∧ Url.read? s.url.toList = none := by
  have haddress : s.socketAddress = address := by
    unfold ReadinessSettings.probe at hprobe
    split at hprobe
    · cases hprobe
    · exact (Probe.port.inj hprobe).1
    · cases hprobe
  rw [← haddress, polled?_socketAddress] at hpolled
  obtain ⟨_, hspelled, hpair⟩ := Option.map_eq_some_iff.1 hpolled
  obtain ⟨rfl, rfl⟩ := Prod.mk.inj hpair
  have htext : s.url.toList = "http://".toList ++ (s.host.toList ++ ':' :: decimal s.port.toNat) := by
    simp [ServerSettings.url, portText]
  refine ⟨rfl, fun hv6 => ?_, fun gs hv6 => ⟨?_, ?_⟩⟩
  · rw [htext, read?_spelled hspelled hv6]
  · rw [Host.spelled?, hv6] at hspelled
    exact (Option.some.inj hspelled).symm
  · rw [htext, read?_unbracketed hv6]

theorem url_names_polled_bracketed :
    Url.read? ({ host := "[::1]", port := 8080 } : ServerSettings).url.toList =
      some ⟨none, .ipv6 [0, 0, 0, 0, 0, 0, 0, 1], some 8080, [], none, none⟩ :=
  (url_names_polled (r := {}) (s := { host := "[::1]", port := 8080 }) rfl (by decide)).2.1 (by decide)

/-- The loopback address is found by the probe, and its URL is none. -/
theorem url_unbracketed :
    ({} : ReadinessSettings).probe { host := "::1" } = .port "::1:5000" (.ofMillis 100) (.ofSeconds 30) ∧
      polled? "::1:5000" = some (.ipv6 [0, 0, 0, 0, 0, 0, 0, 1], 5000) ∧
      Url.read? ({ host := "::1" } : ServerSettings).url.toList = none := by
  decide

end AppLauncher.Address
