import AppLauncher.Storage.Disk

/-!
# Where paths lead

A path that goes on after a directory leads where the rest of it leads from the place of that directory
(`resolveLoop_append`).  In particular the path of an entry of a directory leads to that entry
(`resolve_join_eq_ok_iff`).
-/

namespace AppLauncher.Storage

/-- A name that an entry of a directory can have. -/
structure IsEntryName (name : String) : Prop where
  ne_empty : name ≠ ""
  noSlash : '/' ∉ name.toList
  ne_here : name ≠ "."
  ne_above : name ≠ ".."

instance (name : String) : Decidable (IsEntryName name) :=
  decidable_of_iff (name ≠ "" ∧ '/' ∉ name.toList ∧ name ≠ "." ∧ name ≠ "..")
    ⟨fun ⟨hempty, hslash, hhere, habove⟩ => ⟨hempty, hslash, hhere, habove⟩,
      fun h => ⟨h.ne_empty, h.noSlash, h.ne_here, h.ne_above⟩⟩

/-! ### The names of a path -/

section Names

variable {p : Char → Bool} {cs ds : List Char} {c : Char}

private theorem splitAll_ne_nil (p : Char → Bool) (cs : List Char) : splitAll p cs ≠ [] := by
  cases cs with
  | nil => simp [splitAll]
  | cons c cs =>
    unfold splitAll
    split
    · split <;> simp
    · simp

private theorem splitAll_cons_of_true (h : p c = true) (cs : List Char) :
    splitAll p (c :: cs) = [] :: splitAll p cs := by
  obtain ⟨part, parts, hparts⟩ := List.exists_cons_of_ne_nil (splitAll_ne_nil p cs)
  simp [splitAll, hparts, h]

private theorem splitAll_cons_of_false (h : p c = false) {part : List Char} {parts : List (List Char)}
    (hparts : splitAll p cs = part :: parts) : splitAll p (c :: cs) = (c :: part) :: parts := by
  simp [splitAll, hparts, h]

theorem splitAll_of_forall (h : ∀ c ∈ cs, p c = false) : splitAll p cs = [cs] := by
  induction cs with
  | nil => rfl
  | cons c cs ih =>
    have hcs : splitAll p cs = [cs] := ih fun d hd => h d (List.mem_cons_of_mem _ hd)
    exact splitAll_cons_of_false (h c List.mem_cons_self) hcs

private theorem splitAll_append_cons (h : p c = true) (cs ds : List Char) :
    splitAll p (cs ++ c :: ds) = splitAll p cs ++ splitAll p ds := by
  induction cs with
  | nil => exact splitAll_cons_of_true h ds
  | cons d cs ih =>
    rw [List.cons_append]
    by_cases hd : p d = true
    · rw [splitAll_cons_of_true hd, splitAll_cons_of_true hd, ih, List.cons_append]
    · obtain ⟨part, parts, hparts⟩ := List.exists_cons_of_ne_nil (splitAll_ne_nil p cs)
      have hd' : p d = false := by simpa using hd
      have happend : splitAll p (cs ++ c :: ds) = part :: (parts ++ splitAll p ds) := by
        rw [ih, hparts, List.cons_append]
      rw [splitAll_cons_of_false hd' hparts, splitAll_cons_of_false hd' happend, List.cons_append]

/-- The names between slashes. -/
private def found (cs : List Char) : List String := ((splitAll (· == '/') cs).map String.ofList).filter (· ≠ "")

private theorem found_append (cs ds : List Char) : found (cs ++ '/' :: ds) = found cs ++ found ds := by
  unfold found
  rw [splitAll_append_cons (by simp), List.map_append, List.filter_append]

private theorem found_entryName {name : String} (h : IsEntryName name) : found name.toList = [name] := by
  have hnone : ∀ c ∈ name.toList, (c == '/') = false := by
    intro c hc
    have : c ≠ '/' := fun heq => h.noSlash (heq ▸ hc)
    simpa using this
  unfold found
  rw [splitAll_of_forall hnone]
  simp [h.ne_empty]

private theorem names_eq (path : String) :
    names path = found path.toList ++ (if path.toList.getLast? = some '/' then ["."] else []) := by
  unfold names found
  split <;> simp

end Names

section Join

variable {directory name : String}

private theorem ne_nil_of_entryName (h : IsEntryName name) : name.toList ≠ [] := by
  intro hnil
  exact h.ne_empty (by simpa using hnil)

private theorem isAbsolute_entryName (h : IsEntryName name) : isAbsolute name = false := by
  obtain ⟨c, cs, hcs⟩ := List.exists_cons_of_ne_nil (ne_nil_of_entryName h)
  have hc : c ≠ '/' := by
    intro heq
    exact h.noSlash (by rw [hcs, heq]; exact List.mem_cons_self)
  simp [isAbsolute, hcs, hc]

private theorem getLast?_entryName (h : IsEntryName name) (cs : List Char) :
    (cs ++ name.toList).getLast? ≠ some '/' := by
  have hc := List.getLast?_eq_some_getLast (ne_nil_of_entryName h)
  rw [List.getLast?_append, hc]
  intro hlast
  have hslash : name.toList.getLast? = some '/' := hc.trans hlast
  exact h.noSlash (List.mem_of_getLast? hslash)

/-- The path of an entry has the names of its directory and the entry's name. -/
theorem names_join (hdir : directory ≠ "") (h : IsEntryName name) :
    ∃ ns, names (join directory name) = ns ++ [name] ∧ (names directory = ns ∨ names directory = ns ++ ["."]) := by
  have hlast := getLast?_entryName h
  by_cases hslash : directory.toList.getLast? = some '/'
  · obtain ⟨cs, hcs⟩ := List.getLast?_eq_some_iff.1 hslash
    have hjoin : join directory name = directory ++ name := by
      simp [join, isAbsolute_entryName h, hslash]
    have htext : (directory ++ name).toList = cs ++ '/' :: name.toList := by
      rw [String.toList_append, hcs, List.append_assoc, List.singleton_append]
    refine ⟨found cs, ?_, Or.inr ?_⟩
    · rw [hjoin, names_eq, if_neg (by rw [String.toList_append]; exact hlast _), htext, found_append,
        found_entryName h, List.append_nil]
    · have hnone : found [] = [] := by simp [found, splitAll]
      rw [names_eq, if_pos hslash, hcs, found_append, hnone, List.append_nil]
  · have hjoin : join directory name = directory ++ "/" ++ name := by
      simp [join, isAbsolute_entryName h, hslash, hdir]
    have htext : (directory ++ "/" ++ name).toList = directory.toList ++ '/' :: name.toList := by
      simp [String.toList_append]
    refine ⟨found directory.toList, ?_, Or.inl ?_⟩
    · rw [hjoin, names_eq, if_neg (by rw [String.toList_append]; exact hlast _), htext, found_append,
        found_entryName h, List.append_nil]
    · rw [names_eq, if_neg hslash, List.append_nil]

theorem isAbsolute_join (hdir : directory ≠ "") (h : IsEntryName name) :
    isAbsolute (join directory name) = isAbsolute directory := by
  have hne : directory.toList ≠ [] := by
    intro hnil
    exact hdir (by simpa using hnil)
  obtain ⟨c, cs, hcs⟩ := List.exists_cons_of_ne_nil hne
  unfold join
  rw [isAbsolute_entryName h, if_neg Bool.false_ne_true]
  split <;> simp [isAbsolute, String.toList_append, hcs]

end Join

/-! ### Following names -/

section Walking

variable {root : Entry} {follow : Bool} {ns ms here place : List String} {name : String}

/-- Where a walk goes on after names that lead to a place. -/
def Walk.andThen (w : Walk) (next : List String → Walk) (rest : List String) : Walk :=
  match w with
  | .place p => next p
  | .link directory target more => .link directory target (more ++ rest)
  | .fault f => .fault f

/-- All names but the last are followed through links. -/
theorem walk_append (hms : ms ≠ []) (ns here : List String) :
    walk root follow (ns ++ ms) here = (walk root true ns here).andThen (walk root follow ms) ms := by
  induction ns generalizing here with
  | nil => simp [walk, Walk.andThen]
  | cons n ns ih =>
    rw [List.cons_append]
    unfold walk
    cases root.find? here with
    | none => rfl
    | some e =>
      cases e with
      | file => rfl
      | link => rfl
      | directory es =>
        dsimp only
        by_cases hhere : n = "."
        · simp only [if_pos hhere, ih]
        by_cases habove : n = ".."
        · simp only [if_neg hhere, if_pos habove, ih]
        by_cases hlong : 255 < Text.Utf8.size n
        · simp only [if_neg hhere, if_neg habove, if_pos hlong, Walk.andThen]
        simp only [if_neg hhere, if_neg habove, if_neg hlong]
        cases es.lookup n with
        | none => rfl
        | some x =>
          cases x with
          | file => exact ih _
          | directory => exact ih _
          | link target =>
            -- the names that follow make no link the last one
            have hmore : (ns ++ ms).isEmpty = false := by simp [hms]
            simp [hmore, Walk.andThen]

/-- The place that a walk without links ends at. -/
def Walk.place? : Walk → Except Fault (List String)
  | .place p => .ok p
  | .link .. => .error Fault.loop
  | .fault f => .error f

/-- Names that meet no link lead on from the place to which the names before them lead. -/
theorem resolveLoop_append (hms : ms ≠ [])
    (hplain : ∀ here directory target rest, walk root follow ms here ≠ .link directory target rest) (links : Nat)
    (ns here : List String) : resolveLoop root follow links (ns ++ ms) here =
      (resolveLoop root true links ns here).bind fun p => (walk root follow ms p).place? := by
  have hend (p : List String) (links : Nat) : resolveLoop root follow links ms p = (walk root follow ms p).place? := by
    unfold resolveLoop
    cases hw : walk root follow ms p with
    | place q => rfl
    | fault f => rfl
    | link directory target rest => exact absurd hw (hplain p directory target rest)
  induction links generalizing ns here with
  | zero =>
    unfold resolveLoop
    rw [walk_append hms]
    cases walk root true ns here with
    | place p =>
      have hplace := hend p 0
      unfold resolveLoop at hplace
      exact hplace
    | fault f => rfl
    | link directory target rest => rfl
  | succ links ih =>
    unfold resolveLoop
    rw [walk_append hms]
    cases walk root true ns here with
    | place p =>
      have hplace := hend p (links + 1)
      unfold resolveLoop at hplace
      exact hplace
    | fault f => rfl
    | link directory target rest =>
      simp only [Walk.andThen, ← List.append_assoc]
      exact ih _ _

end Walking

/-! ### Entries of a directory -/

section Entries

variable {d : Disk} {root : Entry} {directory name : String} {place q : List String}

/-- Where the name of an entry leads from a place. -/
def entryPlace (root : Entry) (name : String) (place : List String) : Except Fault (List String) :=
  match root.find? place with
  | some (.directory es) =>
    if 255 < Text.Utf8.size name then .error Fault.longName
    else if (es.lookup name).isSome then .ok (place ++ [name])
    else .error Fault.missing
  | _ => .error Fault.notDirectory

private theorem walk_entryName (h : IsEntryName name) (place : List String) :
    (walk root false [name] place).place? = entryPlace root name place ∧
      ∀ directory target rest, walk root false [name] place ≠ .link directory target rest := by
  unfold walk entryPlace
  simp only [if_neg h.ne_here, if_neg h.ne_above]
  cases root.find? place with
  | none => simp [Walk.place?]
  | some e =>
    cases e with
    | file => simp [Walk.place?]
    | link => simp [Walk.place?]
    | directory es =>
      dsimp only
      by_cases hlong : 255 < Text.Utf8.size name
      · simp [hlong, Walk.place?]
      · cases hx : es.lookup name with
        | none => simp [hlong, Walk.place?]
        | some x => cases x <;> simp [hlong, Walk.place?, walk]

private theorem walk_here (place : List String) :
    (walk root true ["."] place).place? =
      (if (root.find? place).any (·.isDirectory) then .ok place else .error Fault.notDirectory) ∧
      ∀ directory target rest, walk root true ["."] place ≠ .link directory target rest := by
  unfold walk
  cases root.find? place with
  | none => simp [Walk.place?]
  | some e => cases e <;> simp [Walk.place?, walk, Entry.isDirectory]

/-- The path of an entry leads to the entry from the place that the path of its directory leads to. -/
theorem resolve_join (hdir : pathFault? directory = none) (h : IsEntryName name)
    (hpath : pathFault? (join directory name) = none) (d : Disk) :
    d.resolve false (join directory name) = (d.resolve true directory).bind (entryPlace d.root name) := by
  have hne : directory ≠ "" := by
    rintro rfl
    simp [pathFault?] at hdir
  obtain ⟨ns, hjoin, hnames⟩ := names_join hne h
  unfold Disk.resolve
  simp only [hdir, hpath, hjoin, isAbsolute_join hne h]
  generalize (if isAbsolute directory = true then [] else d.workingDirectory) = start
  have hentry : resolveLoop d.root false linkLimit (ns ++ [name]) start =
      (resolveLoop d.root true linkLimit ns start).bind (entryPlace d.root name) := by
    rw [resolveLoop_append (by simp) (fun p => (walk_entryName h p).2)]
    exact congrArg _ (funext fun p => (walk_entryName h p).1)
  rw [hentry]
  rcases hnames with hnames | hnames
  · rw [hnames]
  · -- a slash at the end only asks for a directory, and so does the entry's name
    rw [hnames, resolveLoop_append (by simp) (fun p => (walk_here p).2)]
    cases resolveLoop d.root true linkLimit ns start with
    | error f => rfl
    | ok p =>
      simp only [Except.bind, (walk_here p).1]
      cases hp : d.root.find? p with
      | none => simp [entryPlace, hp]
      | some e => cases e <;> simp [entryPlace, hp, Entry.isDirectory]

theorem pathFault?_of_resolve {follow : Bool} {path : String} (h : d.resolve follow path = .ok q) :
    pathFault? path = none := by
  unfold Disk.resolve at h
  cases hf : pathFault? path with
  | none => rfl
  | some f => simp [hf] at h

/-- The path of an entry leads to a place exactly if it is no path too long and there is such an entry. -/
theorem resolve_join_eq_ok_iff (hdir : pathFault? directory = none) (h : IsEntryName name) :
    d.resolve false (join directory name) = .ok q ↔ pathFault? (join directory name) = none ∧
      Text.Utf8.size name ≤ 255 ∧ ∃ place es, d.resolve true directory = .ok place ∧
        d.root.find? place = some (.directory es) ∧ (es.lookup name).isSome ∧ q = place ++ [name] := by
  constructor
  · intro hq
    have hpath := pathFault?_of_resolve hq
    rw [resolve_join hdir h hpath] at hq
    refine ⟨hpath, ?_⟩
    cases hplace : d.resolve true directory with
    | error f => simp [hplace, Except.bind] at hq
    | ok place =>
      simp only [hplace, Except.bind, entryPlace] at hq
      split at hq
      · rename_i es hes
        split at hq
        · cases hq
        · rename_i hshort
          split at hq
          · rename_i hsome
            exact ⟨by omega, place, es, rfl, hes, hsome, (Except.ok.inj hq).symm⟩
          · cases hq
      · cases hq
  · rintro ⟨hpath, hshort, place, es, hplace, hes, hsome, rfl⟩
    rw [resolve_join hdir h hpath, hplace]
    have hlong : ¬ 255 < Text.Utf8.size name := by omega
    simp [Except.bind, entryPlace, hes, hlong, hsome]

end Entries

end AppLauncher.Storage
