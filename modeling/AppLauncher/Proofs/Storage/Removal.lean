import AppLauncher.Proofs.Document.Entries
import AppLauncher.Proofs.Storage.Paths

/-!
# Taking entries out of a directory

A tree without some entries of one directory holds everything else as before (`find?_without`), so a path leads
where it led before or nowhere (`resolve_of_without`), and it still leads to a directory if only files are gone
(`resolve_without`).  To remove the path of an entry is to take the entry out of its directory
(`remove_without_eq_ok`).
-/

namespace AppLauncher.Storage

open AppLauncher.Document

/-- What an entry can become when others are taken out: a directory stays one, and all else stays as it is. -/
inductive Entry.Keeps : Entry → Entry → Prop
  | same (e : Entry) : Keeps e e
  | directory (es es' : List (String × Entry)) : Keeps (.directory es) (.directory es')

theorem Entry.Keeps.directory_before {x : Entry} {es : List (String × Entry)} (h : x.Keeps (.directory es)) :
    ∃ es', x = .directory es' := by
  cases h with
  | same => exact ⟨es, rfl⟩
  | directory es' => exact ⟨es', rfl⟩

theorem Entry.Keeps.directory_after {x : Entry} {es : List (String × Entry)} (h : Keeps (.directory es) x) :
    ∃ es', x = .directory es' := by
  cases h with
  | same => exact ⟨es, rfl⟩
  | directory _ es' => exact ⟨es', rfl⟩

/-- The tree without the entries of some names in the directory at a place. -/
def Entry.without (place gone : List String) (e : Entry) : Entry :=
  e.changeAt (fun es => es.filter fun x => decide (x.1 ∉ gone)) place

/-- The disk without the entries of some names in the directory at a place. -/
def Disk.without (d : Disk) (place gone : List String) : Disk := { d with root := d.root.without place gone }

namespace Entry

variable {e x : Entry} {place gone q rest : List String} {name : String} {es : List (String × Entry)}

theorem find?_cons (name : String) (q : List String) (es : List (String × Entry)) :
    (directory es).find? (name :: q) = (es.lookup name).bind (·.find? q) := by
  rw [find?]
  cases es.lookup name <;> rfl

theorem without_here (gone : List String) (es : List (String × Entry)) :
    (directory es).without [] gone = directory (es.filter fun x => decide (x.1 ∉ gone)) := rfl

theorem without_below (name : String) (place gone : List String) (es : List (String × Entry)) :
    (directory es).without (name :: place) gone =
      ((es.lookup name).map fun y => directory (setEntry name (y.without place gone) es)).getD (directory es) := by
  unfold without
  rw [changeAt]
  cases es.lookup name <;> rfl

theorem find?_append (e : Entry) (p q : List String) : e.find? (p ++ q) = (e.find? p).bind (·.find? q) := by
  induction p generalizing e with
  | nil => simp [find?]
  | cons n p ih =>
    cases e with
    | file => rfl
    | link => rfl
    | directory es =>
      rw [List.cons_append, find?_cons, find?_cons, Option.bind_assoc]
      exact congrArg _ (funext fun x => ih x)

theorem find?_child (h : e.find? q = some (.directory es)) (name : String) :
    e.find? (q ++ [name]) = es.lookup name := by
  rw [find?_append, h, Option.bind_some, find?_cons]
  cases es.lookup name <;> rfl

/-- Only directories have entries. -/
theorem directory_of_find?_append (h : e.find? (q ++ name :: rest) = some x) :
    ∃ es, e.find? q = some (.directory es) := by
  rw [find?_append] at h
  obtain ⟨y, hy, hx⟩ := Option.bind_eq_some_iff.1 h
  cases y with
  | directory es => exact ⟨es, hy⟩
  | file => cases hx
  | link => cases hx

/-! ### What is found in the smaller tree -/

private theorem lookup_left (name : String) (gone : List String) (es : List (String × Entry)) :
    (es.filter fun x => decide (x.1 ∉ gone)).lookup name = if name ∈ gone then none else es.lookup name := by
  rw [lookup_filter (fun n => decide (n ∉ gone))]
  by_cases h : name ∈ gone <;> simp [h]

/-- At all places but those of the entries that are gone, and those in them, there is what was there before. -/
theorem find?_without (hx : e.find? q = some x) (h : ∀ name ∈ gone, ¬ place ++ [name] <+: q) :
    ∃ x', (e.without place gone).find? q = some x' ∧ x.Keeps x' := by
  induction place generalizing e q with
  | nil =>
    cases e with
    | file => exact ⟨x, hx, .same x⟩
    | link => exact ⟨x, hx, .same x⟩
    | directory es =>
      cases q with
      | nil =>
        obtain rfl := Option.some.inj hx
        exact ⟨_, rfl, .directory _ _⟩
      | cons n q =>
        have hn : n ∉ gone := fun hmem => h n hmem (by simp)
        refine ⟨x, ?_, .same x⟩
        rwa [without_here, find?_cons, lookup_left, if_neg hn, ← find?_cons]
  | cons m place ih =>
    cases e with
    | file => exact ⟨x, hx, .same x⟩
    | link => exact ⟨x, hx, .same x⟩
    | directory es =>
      rw [without_below]
      cases hm : es.lookup m with
      | none => exact ⟨x, hx, .same x⟩
      | some y =>
        cases q with
        | nil =>
          obtain rfl := Option.some.inj hx
          exact ⟨_, rfl, .directory _ _⟩
        | cons n q =>
          rw [find?_cons] at hx
          rw [Option.map_some, Option.getD_some, find?_cons, lookup_setEntry]
          -- only what lies below `m` can have changed
          by_cases hn : n = m
          · subst hn
            rw [hm] at hx
            rw [if_pos rfl]
            exact ih hx fun name hname hprefix => h name hname (by simpa using hprefix)
          · rw [if_neg hn]
            exact ⟨x, hx, .same x⟩

theorem find?_of_without {x' : Entry} (hx : (e.without place gone).find? q = some x') :
    ∃ x, e.find? q = some x ∧ x.Keeps x' := by
  induction place generalizing e q with
  | nil =>
    cases e with
    | file => exact ⟨x', hx, .same x'⟩
    | link => exact ⟨x', hx, .same x'⟩
    | directory es =>
      rw [without_here] at hx
      cases q with
      | nil => exact ⟨_, rfl, Option.some.inj hx ▸ .directory _ _⟩
      | cons n q =>
        refine ⟨x', ?_, .same x'⟩
        rw [find?_cons, lookup_left] at hx
        rw [find?_cons]
        split at hx
        · cases hx
        · exact hx
  | cons m place ih =>
    cases e with
    | file => exact ⟨x', hx, .same x'⟩
    | link => exact ⟨x', hx, .same x'⟩
    | directory es =>
      rw [without_below] at hx
      cases hm : es.lookup m with
      | none =>
        rw [hm] at hx
        exact ⟨x', hx, .same x'⟩
      | some y =>
        rw [hm, Option.map_some, Option.getD_some] at hx
        cases q with
        | nil => exact ⟨_, rfl, Option.some.inj hx ▸ .directory _ _⟩
        | cons n q =>
          rw [find?_cons, lookup_setEntry] at hx
          rw [find?_cons]
          by_cases hn : n = m
          · subst hn
            rw [if_pos rfl] at hx
            rw [hm]
            exact ih hx
          · rw [if_neg hn] at hx
            exact ⟨x', hx, .same x'⟩

theorem find?_without_self (h : e.find? place = some (.directory es)) :
    (e.without place gone).find? place = some (.directory (es.filter fun x => decide (x.1 ∉ gone))) := by
  induction place generalizing e with
  | nil =>
    obtain rfl := Option.some.inj h
    rfl
  | cons m place ih =>
    cases e with
    | file => cases h
    | link => cases h
    | directory es' =>
      rw [find?_cons] at h
      obtain ⟨y, hm, hy⟩ := Option.bind_eq_some_iff.1 h
      rw [without_below, hm, Option.map_some, Option.getD_some, find?_cons, lookup_setEntry, if_pos rfl]
      exact ih hy

theorem find?_without_gone (hname : name ∈ gone) (rest : List String) :
    (e.without place gone).find? (place ++ name :: rest) = none := by
  induction place generalizing e with
  | nil =>
    cases e with
    | file => rfl
    | link => rfl
    | directory es => rw [without_here, List.nil_append, find?_cons, lookup_left, if_pos hname, Option.bind_none]
  | cons m place ih =>
    cases e with
    | file => rfl
    | link => rfl
    | directory es =>
      rw [without_below, List.cons_append]
      cases hm : es.lookup m with
      | none => rw [Option.map_none, Option.getD_none, find?_cons, hm, Option.bind_none]
      | some y =>
        rw [Option.map_some, Option.getD_some, find?_cons, lookup_setEntry, if_pos rfl]
        exact ih

theorem without_nil (e : Entry) (place : List String) : e.without place [] = e := by
  induction place generalizing e with
  | nil => cases e <;> simp [without, changeAt]
  | cons m place ih =>
    cases e with
    | file => rfl
    | link => rfl
    | directory es =>
      rw [without_below]
      cases hm : es.lookup m with
      | none => rfl
      | some y => rw [Option.map_some, Option.getD_some, ih, setEntry_of_lookup hm]

/-- Entries that are taken out one after the other are taken out together. -/
theorem without_without (e : Entry) (place gone gone' : List String) :
    (e.without place gone).without place gone' = e.without place (gone ++ gone') := by
  induction place generalizing e with
  | nil =>
    cases e with
    | file => rfl
    | link => rfl
    | directory es =>
      rw [without_here, without_here, without_here, List.filter_filter]
      congr 1
      refine List.filter_congr fun x _ => ?_
      simp only [List.mem_append, not_or, Bool.decide_and]
      exact Bool.and_comm _ _
  | cons m place ih =>
    cases e with
    | file => rfl
    | link => rfl
    | directory es =>
      rw [without_below, without_below]
      cases hm : es.lookup m with
      | none => rw [Option.map_none, Option.map_none, Option.getD_none, without_below, hm, Option.map_none,
          Option.getD_none]
      | some y =>
        rw [Option.map_some, Option.getD_some, without_below, lookup_setEntry, if_pos rfl, Option.map_some,
          Option.getD_some, setEntry_setEntry, ih, Option.map_some, Option.getD_some]

/-! ### Entries other than directories -/

def IsFile (e : Entry) : Prop := ∃ data executable modified, e = .file data executable modified

theorem IsFile.isDirectory (h : e.IsFile) : e.isDirectory = false := by
  obtain ⟨_, _, _, rfl⟩ := h
  rfl

/-- Where no directories are gone, nothing is gone with them. -/
theorem find?_without_of_ne
    (hgone : ∀ name ∈ gone, ∀ x, e.find? (place ++ [name]) = some x → x.isDirectory = false)
    (hx : e.find? q = some x) (hq : ∀ name ∈ gone, q ≠ place ++ [name]) :
    ∃ x', (e.without place gone).find? q = some x' ∧ x.Keeps x' := by
  apply find?_without hx
  intro name hname hprefix
  obtain ⟨rest, rfl⟩ := hprefix
  cases rest with
  | nil => exact hq name hname (List.append_nil _)
  | cons n rest =>
    obtain ⟨es, hes⟩ := directory_of_find?_append hx
    have hcontra := hgone name hname _ hes
    cases hcontra

/-- Where only files are gone, all but files is still there. -/
theorem find?_without_files
    (hgone : ∀ name ∈ gone, ∀ x, e.find? (place ++ [name]) = some x → x.IsFile) (hx : e.find? q = some x)
    (hfile : ¬ x.IsFile) : ∃ x', (e.without place gone).find? q = some x' ∧ x.Keeps x' := by
  apply find?_without_of_ne (fun name hname y hy => (hgone name hname y hy).isDirectory) hx
  rintro name hname rfl
  exact hfile (hgone name hname x hx)

end Entry

/-! ### Where paths lead in the smaller tree -/

section Walking

variable {root : Entry} {follow : Bool} {place gone ns here p : List String} {es : List (String × Entry)}

/-- A walk in the smaller tree goes where it went before, as far as it goes. -/
private theorem walk_of_without (root : Entry) (follow : Bool) (place gone ns here : List String) :
    walk (root.without place gone) follow ns here = walk root follow ns here ∨
      ∃ f, walk (root.without place gone) follow ns here = .fault f := by
  induction ns generalizing here with
  | nil => exact Or.inl rfl
  | cons n ns ih =>
    cases hhere : (root.without place gone).find? here with
    | none => exact Or.inr ⟨Fault.notDirectory, by simp [walk, hhere]⟩
    | some x =>
      obtain ⟨y, hy, hkeeps⟩ := Entry.find?_of_without hhere
      cases x with
      | file => exact Or.inr ⟨Fault.notDirectory, by simp [walk, hhere]⟩
      | link => exact Or.inr ⟨Fault.notDirectory, by simp [walk, hhere]⟩
      | directory es' =>
        obtain ⟨es, rfl⟩ := hkeeps.directory_before
        unfold walk
        rw [hhere, hy]
        dsimp only
        by_cases hself : n = "."
        · simp only [if_pos hself]
          exact ih here
        by_cases habove : n = ".."
        · simp only [if_neg hself, if_pos habove]
          exact ih here.dropLast
        by_cases hlong : 255 < Text.Utf8.size n
        · simp only [if_neg hself, if_neg habove, if_pos hlong, true_or]
        simp only [if_neg hself, if_neg habove, if_neg hlong]
        cases hn : es'.lookup n with
        | none => exact Or.inr ⟨Fault.missing, rfl⟩
        | some x' =>
          have hchild : (root.without place gone).find? (here ++ [n]) = some x' :=
            (Entry.find?_child hhere n).trans hn
          obtain ⟨y', hy', hkeeps'⟩ := Entry.find?_of_without hchild
          have hlookup : es.lookup n = some y' := (Entry.find?_child hy n).symm.trans hy'
          rw [hlookup]
          cases hkeeps' with
          | directory => exact ih (here ++ [n])
          | same =>
            cases x' with
            | file => exact ih (here ++ [n])
            | directory => exact ih (here ++ [n])
            | link target =>
              -- no link is followed within a walk, so both end here
              dsimp only
              exact Or.inl rfl

private theorem resolveLoop_of_without {links : Nat}
    (h : resolveLoop (root.without place gone) follow links ns here = .ok p) :
    resolveLoop root follow links ns here = .ok p := by
  induction links generalizing ns here with
  | zero =>
    unfold resolveLoop at h ⊢
    rcases walk_of_without root follow place gone ns here with hw | ⟨f, hw⟩
    · rwa [hw] at h
    · rw [hw] at h
      cases h
  | succ links ih =>
    unfold resolveLoop at h ⊢
    rcases walk_of_without root follow place gone ns here with hw | ⟨f, hw⟩
    · rw [hw] at h
      cases hroot : walk root follow ns here with
      | place q =>
        rw [hroot] at h
        exact h
      | fault f =>
        rw [hroot] at h
        cases h
      | link directory target rest =>
        rw [hroot] at h
        exact ih h
    · rw [hw] at h
      cases h

/-- A walk that leads to a link or a directory leads there still, where only files are gone. -/
private theorem walk_without
    (hgone : ∀ name ∈ gone, ∀ x, root.find? (place ++ [name]) = some x → x.IsFile)
    (hend : match walk root true ns here with
      | .place p => ∃ es, root.find? p = some (.directory es)
      | .link .. => True
      | .fault _ => False) :
    walk (root.without place gone) true ns here = walk root true ns here := by
  induction ns generalizing here with
  | nil => rfl
  | cons n ns ih =>
    unfold walk at hend ⊢
    cases hhere : root.find? here with
    | none => simp [hhere] at hend
    | some x =>
      cases x with
      | file => simp [hhere] at hend
      | link => simp [hhere] at hend
      | directory es =>
        have hnot : ¬ (Entry.directory es).IsFile := by
          rintro ⟨_, _, _, hcontra⟩
          cases hcontra
        obtain ⟨y, hy, hkeeps⟩ := Entry.find?_without_files hgone hhere hnot
        obtain ⟨es', rfl⟩ := hkeeps.directory_after
        rw [hhere] at hend
        rw [hy]
        dsimp only at hend ⊢
        by_cases hself : n = "."
        · simp only [if_pos hself] at hend ⊢
          exact ih hend
        by_cases habove : n = ".."
        · simp only [if_neg hself, if_pos habove] at hend ⊢
          exact ih hend
        by_cases hlong : 255 < Text.Utf8.size n
        · simp only [if_neg hself, if_neg habove, if_pos hlong]
        simp only [if_neg hself, if_neg habove, if_neg hlong] at hend ⊢
        have hchild := Entry.find?_child hhere n
        have hchild' := Entry.find?_child hy n
        cases hn : es.lookup n with
        | none => simp [hn] at hend
        | some x =>
          rw [hn] at hend hchild
          by_cases hfile : x.IsFile
          · -- a file leads nowhere but to itself
            obtain ⟨_, _, _, rfl⟩ := hfile
            exfalso
            cases ns with
            | nil => simp [walk, hchild] at hend
            | cons m ns => simp [walk, hchild] at hend
          · obtain ⟨x', hx', hkeeps'⟩ := Entry.find?_without_files hgone hchild hfile
            rw [← hchild', hx']
            cases hkeeps' with
            | directory => exact ih hend
            | same =>
              cases x with
              | file => exact absurd ⟨_, _, _, rfl⟩ hfile
              | directory => exact ih hend
              | link target => rfl

private theorem resolveLoop_without {links : Nat}
    (hgone : ∀ name ∈ gone, ∀ x, root.find? (place ++ [name]) = some x → x.IsFile)
    (h : resolveLoop root true links ns here = .ok p) (hes : root.find? p = some (.directory es)) :
    resolveLoop (root.without place gone) true links ns here = .ok p := by
  induction links generalizing ns here with
  | zero =>
    unfold resolveLoop at h ⊢
    cases hw : walk root true ns here with
    | place q =>
      rw [hw] at h
      obtain rfl := Except.ok.inj h
      rw [walk_without hgone (by rw [hw]; exact ⟨es, hes⟩), hw]
    | fault f =>
      rw [hw] at h
      cases h
    | link directory target rest =>
      rw [hw] at h
      cases h
  | succ links ih =>
    unfold resolveLoop at h ⊢
    cases hw : walk root true ns here with
    | place q =>
      rw [hw] at h
      obtain rfl := Except.ok.inj h
      rw [walk_without hgone (by rw [hw]; exact ⟨es, hes⟩), hw]
    | fault f =>
      rw [hw] at h
      cases h
    | link directory target rest =>
      rw [hw] at h
      rw [walk_without hgone (by rw [hw]; trivial), hw]
      exact ih h

end Walking

namespace Disk

variable {d d' : Disk} {place gone : List String} {directory name : String} {es : List (String × Entry)}

theorem without_nil (d : Disk) (place : List String) : d.without place [] = d := by
  unfold without
  rw [Entry.without_nil]

theorem without_without (d : Disk) (place gone gone' : List String) :
    (d.without place gone).without place gone' = d.without place (gone ++ gone') := by
  unfold without
  rw [Entry.without_without]

theorem without_congr {gone gone' : List String} (h : ∀ name, name ∈ gone ↔ name ∈ gone') (d : Disk)
    (place : List String) : d.without place gone = d.without place gone' := by
  unfold without Entry.without
  congr 3
  funext es
  exact List.filter_congr fun x _ => decide_eq_decide.2 (not_congr (h x.1))

/-- A path leads where it led before, if it leads anywhere. -/
theorem resolve_of_without {follow : Bool} {path : String} {p : List String}
    (h : (d.without place gone).resolve follow path = .ok p) : d.resolve follow path = .ok p := by
  have hpath := pathFault?_of_resolve h
  unfold resolve at h ⊢
  rw [hpath] at h ⊢
  exact resolveLoop_of_without h

/-- A path to a directory still leads there, where only files are gone. -/
theorem resolve_without {path : String} {p : List String}
    (hgone : ∀ name ∈ gone, ∀ x, d.root.find? (place ++ [name]) = some x → x.IsFile)
    (h : d.resolve true path = .ok p) (hes : d.root.find? p = some (.directory es)) :
    (d.without place gone).resolve true path = .ok p := by
  have hpath := pathFault?_of_resolve h
  unfold resolve at h ⊢
  rw [hpath] at h ⊢
  exact resolveLoop_without hgone h hes

theorem list_eq_ok_iff : d.list directory = .ok es ↔
    ∃ p, d.resolve true directory = .ok p ∧ d.root.find? p = some (.directory es) := by
  unfold list entry
  cases hp : d.resolve true directory with
  | error f => simp [bind, Except.bind]
  | ok p =>
    cases he : d.root.find? p with
    | none => simp [bind, Except.bind, he]
    | some e => cases e <;> simp [bind, Except.bind, pure, Except.pure, he]

theorem list_without (hplace : d.resolve true directory = .ok place)
    (hes : d.root.find? place = some (.directory es))
    (hgone : ∀ name ∈ gone, ∀ x, d.root.find? (place ++ [name]) = some x → x.IsFile) :
    (d.without place gone).list directory = .ok (es.filter fun x => decide (x.1 ∉ gone)) :=
  list_eq_ok_iff.2 ⟨place, resolve_without hgone hplace hes, Entry.find?_without_self hes⟩

/-! ### Removing an entry -/

private theorem without_singleton (d : Disk) (place : List String) (name : String) : d.without place [name] =
    { d with root := d.root.changeAt (fun es => es.filter fun e => e.1 != name) place } := by
  unfold without Entry.without
  congr 2
  funext es
  refine List.filter_congr fun x _ => ?_
  by_cases hx : x.1 = name <;> simp [hx]

/-- A file or a link is taken out of its directory. -/
private theorem remove_eq_ok_iff {path : String} {e : Entry} (hq : d.resolve false path = .ok (place ++ [name]))
    (he : d.root.find? (place ++ [name]) = some e) :
    d.remove path = .ok d' ↔ e.isDirectory = false ∧ d' = d.without place [name] := by
  unfold remove
  rw [hq, without_singleton]
  simp only [bind, Except.bind, he, List.getLast?_concat, List.dropLast_concat]
  cases e <;> simp [Entry.isDirectory, pure, Except.pure, eq_comm]

/-- The path of an entry can be removed exactly if it is no path too long and the entry is no directory; the entry is
taken out of its directory. -/
theorem remove_join_eq_ok_iff (hdir : pathFault? directory = none) (h : IsEntryName name) :
    d.remove (join directory name) = .ok d' ↔ pathFault? (join directory name) = none ∧
      Text.Utf8.size name ≤ 255 ∧ ∃ place es e, d.resolve true directory = .ok place ∧
        d.root.find? place = some (.directory es) ∧ es.lookup name = some e ∧ e.isDirectory = false ∧
        d' = d.without place [name] := by
  constructor
  · intro hd'
    cases hq : d.resolve false (join directory name) with
    | error f => simp [remove, hq, bind, Except.bind] at hd'
    | ok q =>
      obtain ⟨hpath, hshort, place, es, hplace, hes, hsome, rfl⟩ := (resolve_join_eq_ok_iff hdir h).1 hq
      obtain ⟨e, he⟩ := Option.isSome_iff_exists.1 hsome
      have hfound : d.root.find? (place ++ [name]) = some e := (Entry.find?_child hes name).trans he
      obtain ⟨hnot, rfl⟩ := (remove_eq_ok_iff hq hfound).1 hd'
      exact ⟨hpath, hshort, place, es, e, hplace, hes, he, hnot, rfl⟩
  · rintro ⟨hpath, hshort, place, es, e, hplace, hes, he, hnot, rfl⟩
    have hq : d.resolve false (join directory name) = .ok (place ++ [name]) :=
      (resolve_join_eq_ok_iff hdir h).2 ⟨hpath, hshort, place, es, hplace, hes, by simp [he], rfl⟩
    have hfound : d.root.find? (place ++ [name]) = some e := (Entry.find?_child hes name).trans he
    exact (remove_eq_ok_iff hq hfound).2 ⟨hnot, rfl⟩

/-- Whatever was taken out of a directory before: an entry of it that can be removed is still there, is no directory
and is gone afterwards as well. -/
theorem remove_without_eq_ok (hplace : d.resolve true directory = .ok place)
    (hes : d.root.find? place = some (.directory es)) (h : IsEntryName name)
    (hd' : (d.without place gone).remove (join directory name) = .ok d') :
    d' = d.without place (gone ++ [name]) ∧ name ∉ gone ∧ ∃ e, es.lookup name = some e ∧ e.isDirectory = false := by
  have hdir := pathFault?_of_resolve hplace
  obtain ⟨-, -, place', es', e, hplace', hes', he, hnot, rfl⟩ := (remove_join_eq_ok_iff hdir h).1 hd'
  obtain rfl : place = place' := Except.ok.inj (hplace.symm.trans (resolve_of_without hplace'))
  have hself : (d.without place gone).root.find? place =
      some (.directory (es.filter fun x => decide (x.1 ∉ gone))) := Entry.find?_without_self hes
  obtain rfl : (es.filter fun x => decide (x.1 ∉ gone)) = es' :=
    Entry.directory.inj (Option.some.inj (hself.symm.trans hes'))
  rw [lookup_filter (fun n => decide (n ∉ gone))] at he
  split at he
  · rename_i hname
    exact ⟨without_without d place gone [name], by simpa using hname, e, he, hnot⟩
  · cases he

/-- A file that can be removed can be removed as well after other files of its directory are gone. -/
theorem remove_without (hplace : d.resolve true directory = .ok place)
    (hes : d.root.find? place = some (.directory es))
    (hgone : ∀ name ∈ gone, ∀ x, d.root.find? (place ++ [name]) = some x → x.IsFile) (h : IsEntryName name)
    (hname : name ∉ gone) (hd' : d.remove (join directory name) = .ok d') :
    (d.without place gone).remove (join directory name) = .ok (d.without place (gone ++ [name])) := by
  have hdir := pathFault?_of_resolve hplace
  obtain ⟨hpath, hshort, place', es', e, hplace', hes', he, hnot, -⟩ := (remove_join_eq_ok_iff hdir h).1 hd'
  obtain rfl : place = place' := Except.ok.inj (hplace.symm.trans hplace')
  obtain rfl : es = es' := Entry.directory.inj (Option.some.inj (hes.symm.trans hes'))
  refine (remove_join_eq_ok_iff hdir h).2 ⟨hpath, hshort, place, _, e, resolve_without hgone hplace hes,
    Entry.find?_without_self hes, ?_, hnot, (without_without d place gone [name]).symm⟩
  rw [lookup_filter (fun n => decide (n ∉ gone)), if_pos (by simpa using hname), he]

end Disk

end AppLauncher.Storage
