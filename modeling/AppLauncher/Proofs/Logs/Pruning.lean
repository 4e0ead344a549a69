import AppLauncher.Proofs.Logs.Due
import AppLauncher.Proofs.Storage.Removal
import Mathlib.Data.List.Nodup

/-!
# What a pruning leaves

Pruning takes the log files that are due out of their directory (`prune_eq_without`).  What is left are the other log
files, in the order in which they were listed, and everything that is no log file (`prune_exact`).
-/

namespace AppLauncher.Logs

open AppLauncher.Storage

/-- The log files in the directory of the settings, as they are listed. -/
def logFiles (s : LoggingSettings) (d : Disk) : List LogFile :=
  match d.list s.directory with
  | .ok es => es.filterMap (LogFile.ofEntry? s.filePrefix)
  | .error _ => []

/-- The entries of the directory have plain names, no two the same. -/
def IsNamed (d : Disk) (directory : String) : Prop :=
  ∀ es, d.list directory = .ok es → (∀ x ∈ es, IsEntryName x.1) ∧ (es.map Prod.fst).Nodup

section

variable {s : LoggingSettings} {d : Disk} {place gone : List String} {es : List (String × Entry)}
  {start : String} {x : String × Entry} {e : Entry} {f g : LogFile} {fs : List LogFile}

/-! ### The log files of a directory -/

theorem ofEntry?_eq_some (h : LogFile.ofEntry? start x = some f) : x.1 = f.name ∧ x.2.IsFile := by
  obtain ⟨name, e⟩ := x
  cases e with
  | directory => cases h
  | link => cases h
  | file data executable modified =>
    rw [LogFile.ofEntry?] at h
    split at h
    · obtain rfl := Option.some.inj h
      exact ⟨rfl, data, executable, modified, rfl⟩
    · cases h

theorem logFiles_of_list (hes : d.list s.directory = .ok es) :
    logFiles s d = es.filterMap (LogFile.ofEntry? s.filePrefix) := by
  unfold logFiles
  rw [hes]

private theorem map_name_sublist (start : String) (es : List (String × Entry)) :
    ((es.filterMap (LogFile.ofEntry? start)).map (·.name)).Sublist (es.map Prod.fst) := by
  induction es with
  | nil => exact .slnil
  | cons x es ih =>
    cases hx : LogFile.ofEntry? start x with
    | none =>
      rw [List.filterMap_cons_none hx, List.map_cons]
      exact ih.cons _
    | some f =>
      rw [List.filterMap_cons_some hx, List.map_cons, List.map_cons, (ofEntry?_eq_some hx).1]
      exact ih.cons_cons _

theorem nodup_names (hlog : IsNamed d s.directory) : ((logFiles s d).map (·.name)).Nodup := by
  cases hes : d.list s.directory with
  | error fault => simp [logFiles, hes]
  | ok es =>
    rw [logFiles_of_list hes]
    exact (map_name_sublist s.filePrefix es).nodup (hlog es hes).2

theorem eq_of_name_eq (hlog : IsNamed d s.directory) (hf : f ∈ logFiles s d) (hg : g ∈ logFiles s d)
    (h : f.name = g.name) : f = g :=
  List.inj_on_of_nodup_map (nodup_names hlog) hf hg h

/-- A log file has a plain name, by which a file is found in the directory. -/
theorem file_of_mem (hlog : IsNamed d s.directory) (hplace : d.resolve true s.directory = .ok place)
    (hes : d.root.find? place = some (.directory es)) (hf : f ∈ logFiles s d) :
    IsEntryName f.name ∧ ∀ x, d.root.find? (place ++ [f.name]) = some x → x.IsFile := by
  have hlist := Disk.list_eq_ok_iff.2 ⟨place, hplace, hes⟩
  obtain ⟨hplain, hnames⟩ := hlog es hlist
  rw [logFiles_of_list hlist] at hf
  obtain ⟨⟨name, e⟩, hmem, hfe⟩ := List.mem_filterMap.1 hf
  obtain ⟨rfl, hfile⟩ := ofEntry?_eq_some hfe
  refine ⟨hplain _ hmem, fun x hx => ?_⟩
  rw [Entry.find?_child hes, (Document.lookup_eq_some_iff_mem hnames).2 hmem] at hx
  exact Option.some.inj hx ▸ hfile

theorem logFiles_without (hplace : d.resolve true s.directory = .ok place)
    (hes : d.root.find? place = some (.directory es))
    (hgone : ∀ name ∈ gone, ∀ x, d.root.find? (place ++ [name]) = some x → x.IsFile) :
    logFiles s (d.without place gone) = (logFiles s d).filter fun f => decide (f.name ∉ gone) := by
  rw [logFiles_of_list (Disk.list_without hplace hes hgone),
    logFiles_of_list (Disk.list_eq_ok_iff.2 ⟨place, hplace, hes⟩), List.filterMap_filter, List.filter_filterMap]
  congr 1
  funext x
  cases hx : LogFile.ofEntry? s.filePrefix x with
  | none => simp
  | some f => simp [(ofEntry?_eq_some hx).1, Option.filter]

/-! ### The deletions -/

theorem deleteAll_deleted {directory : String} {p : Pruning} {d' : Disk}
    (h : p.disk.remove (join directory f.name) = .ok d') :
    deleteAll directory (f :: fs) p = deleteAll directory fs { p with disk := d', deleted := p.deleted + 1 } := by
  -- the equation of one case takes long to derive
  rw [deleteAll.eq_def]
  dsimp only
  rw [h]

/-- Log files that can be deleted are all deleted, one by one. -/
theorem deleteAll_of_removes (gone : List String) (hplace : d.resolve true s.directory = .ok place)
    (hes : d.root.find? place = some (.directory es))
    (hfs : ∀ f ∈ fs, IsEntryName f.name ∧ ∃ d', d.remove (join s.directory f.name) = .ok d')
    (hfiles : ∀ name ∈ gone ++ fs.map (·.name), ∀ x, d.root.find? (place ++ [name]) = some x → x.IsFile)
    (hnodup : (gone ++ fs.map (·.name)).Nodup) (count : Nat) (notes : List String) :
    deleteAll s.directory fs ⟨d.without place gone, count, notes⟩ =
      ⟨d.without place (gone ++ fs.map (·.name)), count + fs.length, notes⟩ := by
  induction fs generalizing gone count with
  | nil =>
    rw [List.map_nil, List.append_nil]
    rfl
  | cons f fs ih =>
    have hnames : gone ++ (f :: fs).map (·.name) = gone ++ [f.name] ++ fs.map (·.name) := by simp
    rw [hnames] at hfiles hnodup ⊢
    obtain ⟨hname, d', hremove⟩ := hfs f List.mem_cons_self
    have hgone : ∀ name ∈ gone, ∀ x, d.root.find? (place ++ [name]) = some x → x.IsFile := fun name hmem =>
      hfiles name (by simp [hmem])
    have hnew : f.name ∉ gone := by
      intro hmem
      exact List.disjoint_of_nodup_append hnodup.of_append_left hmem List.mem_cons_self
    have hrest := ih (gone ++ [f.name]) (fun g hg => hfs g (List.mem_cons_of_mem _ hg)) hfiles hnodup (count + 1)
    calc deleteAll s.directory (f :: fs) ⟨d.without place gone, count, notes⟩
        = deleteAll s.directory fs ⟨d.without place (gone ++ [f.name]), count + 1, notes⟩ :=
          deleteAll_deleted (Disk.remove_without hplace hes hgone hname hnew hremove)
      _ = ⟨d.without place (gone ++ [f.name] ++ fs.map (·.name)), count + 1 + fs.length, notes⟩ := hrest
      _ = ⟨d.without place (gone ++ [f.name] ++ fs.map (·.name)), count + (f :: fs).length, notes⟩ := by
        rw [List.length_cons, Nat.add_right_comm, Nat.add_assoc]

theorem prune_of_list (now : Int) (hlist : d.list s.directory = .ok es) :
    let going := due s.maxFiles.toNat s.maxAgeDays.toNat now (logFiles s d)
    let p := deleteAll s.directory going ⟨d, 0, []⟩
    (prune s now d).disk = p.disk ∧ (prune s now d).deleted = p.deleted := by
  intro going p
  have hgoing : due s.maxFiles.toNat s.maxAgeDays.toNat now (es.filterMap (LogFile.ofEntry? s.filePrefix)) = going := by
    rw [← logFiles_of_list hlist]
  unfold prune
  by_cases hlimits : s.maxFiles = 0 ∧ s.maxAgeDays = 0
  · -- the directory is not looked at, but nothing would be due
    have hnone : going = [] := by
      rw [← hgoing, hlimits.1, hlimits.2]
      exact due_unlimited now _
    have hp : p = ⟨d, 0, []⟩ := by
      show deleteAll s.directory going ⟨d, 0, []⟩ = _
      rw [hnone]
      rfl
    rw [if_pos hlimits, hp]
    exact ⟨rfl, rfl⟩
  · have hcontains : d.contains s.directory = true := by
      obtain ⟨place, hplace, hes⟩ := Disk.list_eq_ok_iff.1 hlist
      simp [Disk.contains, Disk.entry, hplace, hes, bind, Except.bind, pure, Except.pure, Except.isOk, Except.toBool]
    simp only [if_neg hlimits, hcontains, Bool.not_true, Bool.false_eq_true, if_false, hlist, hgoing]
    split <;> exact ⟨rfl, rfl⟩

theorem prune_of_not_list {fault : Fault} (now : Int) (hlist : d.list s.directory = .error fault) :
    (prune s now d).disk = d ∧ (prune s now d).deleted = 0 := by
  unfold prune
  rw [hlist]
  split
  · exact ⟨rfl, rfl⟩
  · split <;> exact ⟨rfl, rfl⟩

/-- Where all log files can be deleted, a pruning takes those that are due out of their directory. -/
theorem prune_eq_without (now : Int) (hlog : IsNamed d s.directory)
    (hdeletes : ∀ f ∈ logFiles s d, ∃ d', d.remove (join s.directory f.name) = .ok d') :
    let going := due s.maxFiles.toNat s.maxAgeDays.toNat now (logFiles s d)
    ∃ place, (∀ es, d.list s.directory = .ok es → d.resolve true s.directory = .ok place) ∧
      (∀ f ∈ going, ∀ x, d.root.find? (place ++ [f.name]) = some x → x.IsFile) ∧
      (prune s now d).disk = d.without place (going.map (·.name)) ∧ (prune s now d).deleted = going.length ∧
      logFiles s (prune s now d).disk = (logFiles s d).filter fun f => decide (f ∉ going) := by
  intro going
  cases hlist : d.list s.directory with
  | error fault =>
    have hfiles : logFiles s d = [] := by
      unfold logFiles
      rw [hlist]
    have hgoing : going = [] := by
      apply List.eq_nil_iff_forall_not_mem.2
      intro f hf
      have := mem_of_mem_due hf
      rw [hfiles] at this
      cases this
    obtain ⟨hdisk, hdeleted⟩ := prune_of_not_list now hlist
    refine ⟨[], by simp, by simp [hgoing], ?_, by rw [hdeleted, hgoing]; rfl, by rw [hdisk, hfiles]; rfl⟩
    rw [hdisk, hgoing]
    exact (Disk.without_nil d []).symm
  | ok es =>
    obtain ⟨place, hplace, hes⟩ := Disk.list_eq_ok_iff.1 hlist
    have hmem : ∀ f ∈ going, f ∈ logFiles s d := fun f hf => mem_of_mem_due hf
    have hfile := fun f hf => (file_of_mem hlog hplace hes (hmem f hf)).2
    have hgone : ∀ name ∈ going.map (·.name), ∀ x, d.root.find? (place ++ [name]) = some x → x.IsFile := by
      intro name hname
      obtain ⟨f, hf, rfl⟩ := List.mem_map.1 hname
      exact hfile f hf
    have hnodup : (going.map (·.name)).Nodup :=
      ((due_sublist _ _ now (logFiles s d)).map _).nodup
        (((newestFirst_perm (logFiles s d)).map _).nodup_iff.2 (nodup_names hlog))
    have hrun := deleteAll_of_removes [] hplace hes
      (fun f hf => ⟨(file_of_mem hlog hplace hes (hmem f hf)).1, hdeletes f (hmem f hf)⟩) hgone hnodup 0 []
    rw [Disk.without_nil, Nat.zero_add, List.nil_append] at hrun
    obtain ⟨hdisk, hdeleted⟩ := prune_of_list now hlist
    rw [hrun] at hdisk hdeleted
    refine ⟨place, fun _ _ => hplace, hfile, hdisk, hdeleted, ?_⟩
    rw [hdisk, logFiles_without hplace hes hgone]
    apply List.filter_congr
    intro f hf
    apply decide_eq_decide.2
    apply not_congr
    constructor
    · intro hname
      obtain ⟨g, hg, hgf⟩ := List.mem_map.1 hname
      exact eq_of_name_eq hlog (hmem g hg) hf hgf ▸ hg
    · exact List.mem_map_of_mem

end

/-- The log files of any directory are pruned by any limits, all of them being files that can be deleted.  No more
files are left than may be, and none that is too old; a file from the future is never too old.  A file goes only
because it is too old or because enough other files are at least as new, and with it go all that are strictly older.
Nothing else changes, and without limits nothing changes at all.  The number of deleted files is the number of those
that are missing.  The longest time that can be set fits into a 64-bit count of seconds. -/
theorem prune_exact (s : LoggingSettings) (now : Int) (d : Disk) (hlog : IsNamed d s.directory)
    (hdeletes : ∀ f ∈ logFiles s d, ∃ d', d.remove (join s.directory f.name) = .ok d') :
    let m := s.maxFiles.toNat
    let days := s.maxAgeDays.toNat
    let isOld := fun f : LogFile => ((days * dayNanos : Nat) : Int) < now - f.modified
    let p := prune s now d
    let files := logFiles s d
    let left := logFiles s p.disk
    left.Sublist files ∧ (0 < m → left.length ≤ m) ∧ (0 < days → ∀ f ∈ left, ¬ isOld f) ∧
      (∀ f, now ≤ f.modified → ¬ isOld f) ∧
      (∀ f ∈ files, f ∉ left → (0 < days ∧ isOld f) ∨
        (0 < m ∧ m ≤ (files.filter fun g => decide (g ≠ f ∧ f.modified ≤ g.modified)).length)) ∧
      (∀ f ∈ files, f ∉ left → ∀ g ∈ files, g.modified < f.modified → g ∉ left) ∧
      (∃ place, (∀ es, d.list s.directory = .ok es → d.resolve true s.directory = .ok place) ∧
        (∀ q e, d.root.find? q = some e → (∀ f ∈ files, f ∉ left → q ≠ place ++ [f.name]) →
          ∃ e', p.disk.root.find? q = some e' ∧ e.Keeps e') ∧
        ∀ q e', p.disk.root.find? q = some e' → ∃ e, d.root.find? q = some e ∧ e.Keeps e') ∧
      (m = 0 → days = 0 → p.disk = d) ∧ p.deleted = (files.filter fun f => decide (f ∉ left)).length ∧
      days * (24 * 60 * 60) < UInt64.size := by
  intro m days isOld p files left
  obtain ⟨place, hplace, hfile, hdisk, hdeleted, hleft⟩ := prune_eq_without now hlog hdeletes
  have hnodup : files.Nodup := (nodup_names hlog).of_map _
  have hkept : ∀ f, f ∈ left ↔ f ∈ files ∧ f ∉ due m days now files := by
    intro f
    show f ∈ logFiles s (prune s now d).disk ↔ _
    rw [hleft, List.mem_filter, decide_eq_true_eq]
  have hgone : ∀ f ∈ files, f ∉ left ↔ f ∈ due m days now files := by
    intro f hf
    rw [hkept, not_and, not_not]
    exact ⟨fun h => h hf, fun h _ => h⟩
  refine ⟨?_, ?_, ?_, ?_, ?_, ?_, ⟨place, hplace, ?_, ?_⟩, ?_, ?_, ?_⟩
  · show (logFiles s (prune s now d).disk).Sublist files
    rw [hleft]
    exact List.filter_sublist
  · intro hm
    show (logFiles s (prune s now d).disk).length ≤ m
    rw [hleft]
    exact length_kept_le hm
  · intro hdays f hf
    obtain ⟨hfile, hstays⟩ := (hkept f).1 hf
    exact Int.not_lt.2 (age_of_notMem_due hdays hfile hstays)
  · intro f hfuture hold
    have hage : ((days * dayNanos : Nat) : Int) < now - f.modified := hold
    omega
  · intro f hf hmissing
    exact cause_of_mem_due hnodup ((hgone f hf).1 hmissing)
  · intro f hf hmissing g hg hold
    exact (hgone g hg).2 (mem_due_of_older ((hgone f hf).1 hmissing) hg hold)
  · intro q e he hq
    show ∃ e', (prune s now d).disk.root.find? q = some e' ∧ e.Keeps e'
    rw [hdisk]
    apply Entry.find?_without_of_ne ?_ he
    · intro name hname
      obtain ⟨f, hf, rfl⟩ := List.mem_map.1 hname
      have hmem := mem_of_mem_due hf
      exact hq f hmem ((hgone f hmem).2 hf)
    · intro name hname x hx
      obtain ⟨f, hf, rfl⟩ := List.mem_map.1 hname
      exact (hfile f hf x hx).isDirectory
  · intro q e' he'
    have hfound : (prune s now d).disk.root.find? q = some e' := he'
    rw [hdisk] at hfound
    exact Entry.find?_of_without hfound
  · intro hm hdays
    show (prune s now d).disk = d
    have hnone : due m days now files = [] := by
      rw [hm, hdays]
      exact due_unlimited now files
    have hnames : (due m days now files).map (·.name) = [] := by rw [hnone, List.map_nil]
    rw [hdisk]
    exact hnames ▸ Disk.without_nil d place
  · show (prune s now d).deleted = _
    rw [hdeleted, length_due hnodup]
    apply congrArg List.length
    apply List.filter_congr
    intro f hf
    exact decide_eq_decide.2 (hgone f hf).symm
  · have := s.maxAgeDays.toNat_lt
    show s.maxAgeDays.toNat * (24 * 60 * 60) < 18446744073709551616
    omega

/-- Of three log files only one may stay, and it is the newest. -/
theorem prune_exact_newest :
    let s : LoggingSettings := { filePrefix := "app", maxFiles := 1, maxAgeDays := 0 }
    let d : Disk := ⟨.directory [("logs", .directory [("app.1", .file [] false 10), ("app.3", .file [] false 30),
      ("notes", .file [] false 0), ("app.2", .file [] false 20)])], []⟩
    IsNamed d "logs" ∧ (∀ f ∈ logFiles s d, ∃ d', d.remove (join "logs" f.name) = .ok d') ∧
      (logFiles s (prune s 50 d).disk).length ≤ 1 ∧ ⟨"app.3", 30⟩ ∈ logFiles s (prune s 50 d).disk := by
  intro s d
  have hfiles : logFiles s d = [⟨"app.1", 10⟩, ⟨"app.3", 30⟩, ⟨"app.2", 20⟩] := by decide
  have hlog : IsNamed d "logs" := by
    intro es hes
    obtain rfl := Except.ok.inj hes
    exact ⟨by decide, by decide⟩
  have hdeletes : ∀ f ∈ logFiles s d, ∃ d', d.remove (join "logs" f.name) = .ok d' := by
    intro f hf
    rw [hfiles] at hf
    simp only [List.mem_cons, List.not_mem_nil, or_false] at hf
    rcases hf with rfl | rfl | rfl <;> exact ⟨_, rfl⟩
  obtain ⟨-, hlength, -, -, hcause, -⟩ := prune_exact s 50 d hlog hdeletes
  refine ⟨hlog, hdeletes, hlength (by decide), ?_⟩
  by_contra hmissing
  rcases hcause ⟨"app.3", 30⟩ (by rw [hfiles]; decide) hmissing with ⟨hdays, -⟩ | ⟨-, hcount⟩
  · exact absurd hdays (by decide)
  · rw [hfiles] at hcount
    exact absurd hcount (by decide)

end AppLauncher.Logs
