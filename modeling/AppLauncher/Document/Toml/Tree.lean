import AppLauncher.Document.Value

/-!
# Tables under construction

While a text is read, a table remembers how it came to be: by its own header, by a longer header, or by a dotted
key.  A table may have one header; a dotted key may not reach into a table that has one; and neither may reach
into a value.
-/

namespace AppLauncher.Document.Toml

/-- How a table came to be. -/
inductive Origin
  | header
  | longerHeader
  | dottedKey
  deriving DecidableEq, Repr

/-- What a key of an unfinished table holds.  The last of several tables stands first. -/
inductive Item
  | value (v : Value)
  | table (origin : Origin) (entries : List (String × Item))
  | tables (elements : List Item)

/-- The entries of an unfinished table. -/
abbrev Entries := List (String × Item)

mutual

/-- The finished form of an item. -/
def Item.finish : Item → Value
  | .value v => v
  | .table _ entries => .table (finishEntries entries)
  | .tables elements => .list (finishItems elements [])

/-- The finished form of entries. -/
def finishEntries : List (String × Item) → List (String × Value)
  | [] => []
  | (k, i) :: rest => (k, i.finish) :: finishEntries rest

/-- The finished forms of items, in reverse, before `done`. -/
def finishItems : List Item → List Value → List Value
  | [], done => done
  | i :: rest, done => finishItems rest (i.finish :: done)

end

/-- Changes the table at the end of a path, making the tables on the way that are missing.  A dotted path may
not pass a table with a header of its own. -/
def descend (dotted : Bool) (change : Origin → Entries → Option Entries) :
    List String → Origin → Entries → Option Entries
  | [], origin, entries => change origin entries
  | key :: path, _, entries =>
    match entries.lookup key with
    | none => do
      let origin := if dotted then .dottedKey else .longerHeader
      let inner ← descend dotted change path origin []
      pure (setEntry key (.table origin inner) entries)
    | some (.value _) => none
    | some (.tables (.table origin inner :: others)) => do
      let inner ← descend dotted change path origin inner
      pure (setEntry key (.tables (.table origin inner :: others)) entries)
    | some (.tables _) => none
    | some (.table origin inner) =>
      if dotted && origin == .header then none
      else do
        let inner ← descend dotted change path origin inner
        pure (setEntry key (.table origin inner) entries)

/-- The entries with a value put under a dotted key.  The key must be new, and tables on the way must come from
dotted keys. -/
def putDotted (path : List String) (key : String) (v : Value) (entries : Entries) : Option Entries :=
  descend true (fun origin inner =>
    if (origin == .dottedKey) == path.isEmpty then none
    else if (inner.lookup key).isSome then none
    else some (inner ++ [(key, .value v)])) path .header entries

/-- The table that is being filled: the tables above it, its key, whether it is one of several, and its
entries so far. -/
structure Section where
  parents : List String
  key : String
  repeated : Bool
  entries : Entries

/-- A document under construction: what is finished, and the table being filled; before the first header it is
the document itself. -/
structure Draft where
  root : Entries
  current : Option Section

namespace Draft

/-- Nothing read yet. -/
def empty : Draft := ⟨[], none⟩

/-- Puts the table being filled into its place. -/
def close (d : Draft) : Option Entries :=
  match d.current with
  | none => some d.root
  | some s =>
    descend false (fun _ entries =>
      if s.repeated then
        match entries.lookup s.key with
        | some (.tables elements) => some (setEntry s.key (.tables (.table .header s.entries :: elements)) entries)
        | _ => none
      else
        match entries.lookup s.key with
        | none => some (entries ++ [(s.key, .table .header s.entries)])
        | some _ => none) s.parents .header d.root

/-- A key with its value in the table being filled. -/
def put (d : Draft) (path : List String) (key : String) (v : Value) : Option Draft :=
  match d.current with
  | none => (putDotted path key v d.root).map fun root => { d with root }
  | some s => (putDotted path key v s.entries).map fun entries => { d with current := some { s with entries } }

/-- A header of a table: the key must be new, or a table that only longer headers made. -/
def openTable (d : Draft) (parents : List String) (key : String) : Option Draft := do
  let root ← d.close
  let root ← descend false (fun _ entries => some entries) parents .header root
  let found ← parents.foldlM (fun entries k =>
    match entries.lookup k with
    | some (.table _ inner) => some inner
    | some (.tables (.table _ inner :: _)) => some inner
    | _ => none) root
  match found.lookup key with
  | none => pure ⟨root, some ⟨parents, key, false, []⟩⟩
  | some (.table .longerHeader inner) =>
    let root ← descend false (fun _ entries => some (entries.filter fun e => e.1 != key)) parents .header root
    pure ⟨root, some ⟨parents, key, false, inner⟩⟩
  | some _ => none

/-- A header of one of several tables: the key must be new, or hold such tables. -/
def openRepeated (d : Draft) (parents : List String) (key : String) : Option Draft := do
  let root ← d.close
  let root ← descend false (fun _ entries =>
    match entries.lookup key with
    | none => some (entries ++ [(key, .tables [])])
    | some (.tables _) => some entries
    | some _ => none) parents .header root
  pure ⟨root, some ⟨parents, key, true, []⟩⟩

/-- The finished document. -/
def finish (d : Draft) : Option Value := d.close.map fun entries => .table (finishEntries entries)

end Draft

end AppLauncher.Document.Toml
