import AppLauncher.Client.Relay
import AppLauncher.Proofs.Text.Literal

/-!
# Scripts of relays

A relay's script has a line for its name, a line for each of its pairs and a last line (`splitOn_chars`).  The names
stand in complete literals, and the code around them is that of the relay with as many pairs without names
(`cuts_chars`).  So the relay can be read off its script (`read?_script`), whatever its names are (`script_exact`).
-/

namespace AppLauncher.Client.Relay

open AppLauncher.Text.Literal (encode decode? cut? Cuts Spells)

/-- The names of a relay in the order of its script, where the field that a value goes to comes first. -/
def names (r : Relay) : List String := r.name :: r.pairs.flatMap fun p => [p.2, p.1]

/-- The first line of a script with the literal of the relay's name. -/
def headerLine (name : List Char) : List Char := "window[".toList ++ name ++ "] = function () \x7b".toList

/-- The line of a script that copies a value from the field `source` to the field `target`, both given by literals. -/
def copyLine (target source : List Char) : List Char :=
  "    document.getElementsByName(".toList ++ target ++ ")[0].value = document.getElementsByName(".toList ++ source ++
    ")[0].value;".toList

/-- The relay with so many pairs where nothing has a name. -/
def blank (n : Nat) : Relay := ⟨"", List.replicate n ("", "")⟩

/-- The pairs whose names are given in the order of a script. -/
def pairUp? : List String → Option (List (String × String))
  | [] => some []
  | [_] => none
  | target :: source :: rest => (pairUp? rest).map ((source, target) :: ·)

/-- The relay with these names. -/
def ofNames? : List String → Option Relay
  | [] => none
  | name :: rest => (pairUp? rest).map (Relay.mk name)

/-- The relay that has the script, if there is one: the relay with the names that the script's literals spell. -/
def read? (script : String) : Option Relay := do
  let (_, literals) ← cut? script.toList
  let texts ← literals.mapM decode?
  let r ← ofNames? (texts.map fun t => String.ofList t.1)
  if r.script = script then some r else none

variable {r s : Relay}

/-! ### Lines -/

theorem header_eq (name : List Char) : header name = headerLine (encode name) ++ ['\n'] := by
  have htail : "] = function () \x7b\n".toList = "] = function () \x7b".toList ++ ['\n'] := rfl
  unfold header headerLine
  rw [htail, List.append_assoc _ _ ['\n']]

theorem line_eq (source target : List Char) :
    line source target = copyLine (encode target) (encode source) ++ ['\n'] := by
  have hfirst : "    document.getElementsByName(".toList = "    ".toList ++ "document.getElementsByName(".toList := rfl
  have hmiddle : ")[0].value = document.getElementsByName(".toList =
      ")[0].value".toList ++ (" = ".toList ++ "document.getElementsByName(".toList) := rfl
  have hlast : ")[0].value;".toList ++ ['\n'] = ")[0].value".toList ++ ";\n".toList := rfl
  unfold line field copyLine
  rw [hfirst, hmiddle, List.append_assoc _ ")[0].value;".toList, hlast]
  simp only [List.append_assoc]

private theorem newline_notMem_encode (cs : List Char) : '\n' ∉ encode cs := by
  intro h
  exact absurd ((Text.Literal.spells_encode cs).visible _ h) (by decide)

theorem newline_notMem_headerLine (name : List Char) : '\n' ∉ headerLine (encode name) := by
  have hfirst : '\n' ∉ "window[".toList := by decide
  have hlast : '\n' ∉ "] = function () \x7b".toList := by decide
  exact List.not_mem_append (List.not_mem_append hfirst (newline_notMem_encode name)) hlast

theorem newline_notMem_copyLine (target source : List Char) : '\n' ∉ copyLine (encode target) (encode source) := by
  have hfirst : '\n' ∉ "    document.getElementsByName(".toList := by decide
  have hmiddle : '\n' ∉ ")[0].value = document.getElementsByName(".toList := by decide
  have hlast : '\n' ∉ ")[0].value;".toList := by decide
  have htarget := List.not_mem_append (List.not_mem_append hfirst (newline_notMem_encode target)) hmiddle
  exact List.not_mem_append (List.not_mem_append htarget (newline_notMem_encode source)) hlast

/-- A script has one line for the name, one for each pair in order and one at the end. -/
theorem splitOn_chars (r : Relay) : r.chars.splitOn '\n' = headerLine (encode r.name.toList) ::
    r.pairs.map (fun p => copyLine (encode p.2.toList) (encode p.1.toList)) ++ ["\x7d;".toList, []] := by
  have hfooter : footer.splitOn '\n' = ["\x7d;".toList, []] := by decide
  have hpairs (ps : List (String × String)) :
      (ps.flatMap (fun p => line p.1.toList p.2.toList) ++ footer).splitOn '\n' =
        ps.map (fun p => copyLine (encode p.2.toList) (encode p.1.toList)) ++ ["\x7d;".toList, []] := by
    induction ps with
    | nil => exact hfooter
    | cons p ps ih =>
      rw [List.flatMap_cons, line_eq, List.append_assoc, List.append_assoc, List.singleton_append,
        List.splitOn_append_cons_self_of_not_mem (newline_notMem_copyLine _ _), ih]
      rfl
  rw [chars, header_eq, List.append_assoc, List.append_assoc, List.singleton_append,
    List.splitOn_append_cons_self_of_not_mem (newline_notMem_headerLine _), hpairs]
  rfl

/-! ### Literals -/

/-- The literals of a script are those of its names, and they stand where the blank relay has empty ones. -/
theorem cuts_chars (r : Relay) : Cuts r.chars (blank r.pairs.length).chars (r.names.map fun n => encode n.toList) := by
  have hcode {cs : List Char} (h : '"' ∉ cs) : Cuts cs cs [] := Text.Literal.cuts_code h
  have hempty : encode "".toList = ['"', '"'] := rfl
  have hliteral (n : String) : Cuts (encode n.toList) (encode "".toList) [encode n.toList] :=
    hempty ▸ Text.Literal.cuts_encode n.toList
  have hfield (n : String) : Cuts (field n.toList) (field "".toList) [encode n.toList] :=
    ((hcode (by decide)).append (hliteral n)).append (hcode (by decide))
  have hline (p : String × String) :
      Cuts (line p.1.toList p.2.toList) (line "".toList "".toList) [encode p.2.toList, encode p.1.toList] :=
    ((((hcode (by decide)).append (hfield p.2)).append (hcode (by decide))).append (hfield p.1)).append
      (hcode (by decide))
  have hpairs (ps : List (String × String)) :
      Cuts (ps.flatMap fun p => line p.1.toList p.2.toList)
        ((blank ps.length).pairs.flatMap fun p => line p.1.toList p.2.toList)
        ((ps.flatMap fun p => [p.2, p.1]).map fun n => encode n.toList) := by
    induction ps with
    | nil => exact Text.Literal.cuts_nil
    | cons p ps ih => exact (hline p).append ih
  have hheader : Cuts (header r.name.toList) (header "".toList) [encode r.name.toList] :=
    ((hcode (by decide)).append (hliteral r.name)).append (hcode (by decide))
  exact List.append_nil (r.names.map fun n => encode n.toList) ▸
    (hheader.append (hpairs r.pairs)).append (hcode (by decide))

/-! ### Reading a script -/

theorem pairUp?_names (ps : List (String × String)) : pairUp? (ps.flatMap fun p => [p.2, p.1]) = some ps := by
  induction ps with
  | nil => rfl
  | cons p ps ih =>
    show (pairUp? (ps.flatMap fun p => [p.2, p.1])).map _ = _
    rw [ih]
    rfl

theorem ofNames?_names (r : Relay) : ofNames? r.names = some r := by
  show (pairUp? _).map _ = _
  rw [pairUp?_names]
  rfl

private theorem mapM_decode?_encode (ns : List String) :
    (ns.map fun n => encode n.toList).mapM decode? = some (ns.map fun n => (n.toList, [])) := by
  induction ns with
  | nil => rfl
  | cons n ns ih =>
    have hn : decode? (encode n.toList) = some (n.toList, []) := by
      simpa using Text.Literal.decode?_encode n.toList []
    simp [hn, ih]

theorem toList_script (r : Relay) : r.script.toList = r.chars := String.toList_ofList

theorem read?_script (r : Relay) : read? r.script = some r := by
  have htexts : ((r.names.map fun n => (n.toList, [])).map fun t : List Char × List Char => String.ofList t.1) =
      r.names := by
    simp [Function.comp_def]
  unfold read?
  rw [toList_script, (cuts_chars r).cut?]
  simp only [Option.bind_eq_bind, Option.bind_some]
  rw [mapM_decode?_encode, Option.bind_some, htexts, ofNames?_names, Option.bind_some, if_pos rfl]

theorem read?_eq_some_iff {script : String} : read? script = some r ↔ r.script = script := by
  constructor
  · intro h
    simp only [read?, Option.bind_eq_bind, Option.bind_eq_some_iff] at h
    obtain ⟨_, -, _, -, s, -, hs⟩ := h
    split at hs
    · rename_i hscript
      exact Option.some.inj hs ▸ hscript
    · cases hs
  · rintro rfl
    exact read?_script r

/-- The script of any relay, whatever its names are.  It has the line of the relay's name, a line for each pair in order
and the line at the end, and nothing else.  Its literals are those of the names: each is complete and stands for its
name, and outside of them the script is the one of the relay with as many pairs without names.  The relay is read off
its script, so no other relay has it. -/
theorem script_exact (r : Relay) :
    r.script.toList.splitOn '\n' = headerLine (encode r.name.toList) ::
        r.pairs.map (fun p => copyLine (encode p.2.toList) (encode p.1.toList)) ++ ["\x7d;".toList, []] ∧
      cut? r.script.toList =
        some ((blank r.pairs.length).script.toList, r.names.map fun n => encode n.toList) ∧
      (∀ n ∈ r.names, Spells (encode n.toList) n.toList) ∧
      (∀ script, read? script = some r ↔ script = r.script) ∧
      ∀ s : Relay, s.script = r.script ↔ s = r := by
  refine ⟨?_, ?_, fun n _ => Text.Literal.spells_encode n.toList, ?_, ?_⟩
  · rw [toList_script, splitOn_chars]
  · rw [toList_script, toList_script, (cuts_chars r).cut?]
  · intro script
    rw [read?_eq_some_iff, eq_comm]
  · intro s
    constructor
    · intro h
      have hs := read?_script s
      rw [h, read?_script r] at hs
      exact (Option.some.inj hs).symm
    · rintro rfl
      rfl

example : (Relay.mk "a\"] = 1; \\" []).script = "window[\"a\\\"] = 1; \\\\\"] = function () \x7b\n\x7d;\n" := by decide

end AppLauncher.Client.Relay
