import AppLauncher.Proofs.Logs.Pruning

/-!
# Prunings one after the other

Sorting keeps the order of equally old files, so the files that stay stand in the order in which they stood before,
and the files that go are the end of it (`newestFirst_kept`).  So a second pruning counts and dates the files as the
first one did, and both together do what one pruning by the tighter of their limits does (`due_tighter`,
`prune_prune`).  Pruning again, or by looser limits, changes nothing, and the two limits may be applied one after the
other in any order (`prune_composes`).
-/

namespace AppLauncher.Logs

open AppLauncher.Storage

variable {files : List LogFile} {f g : LogFile} {m a m' a' i : Nat} {now : Int}

/-! ### The order of some of the files -/

/-- A list falls into two parts in one way, if the parts are told apart by a property of their members. -/
private theorem parts_unique {α : Type} {q : α → Bool} {xs ys xs' ys' : List α} (hxs : ∀ x ∈ xs, q x = true)
    (hys : ∀ y ∈ ys, ¬ q y = true) (hxs' : ∀ x ∈ xs', q x = true) (hys' : ∀ y ∈ ys', ¬ q y = true)
    (h : xs ++ ys = xs' ++ ys') : xs = xs' ∧ ys = ys' := by
  have hfirst := congrArg (List.filter q) h
  rw [List.filter_append, List.filter_append, List.filter_eq_self.2 hxs, List.filter_eq_nil_iff.2 hys,
    List.filter_eq_self.2 hxs', List.filter_eq_nil_iff.2 hys', List.append_nil, List.append_nil] at hfirst
  subst hfirst
  exact ⟨rfl, List.append_cancel_left h⟩

/-- The first file of a listing stands behind those that are newer and before those that are not. -/
private theorem newestFirst_cons (f : LogFile) (files : List LogFile) :
    ∃ before behind, newestFirst (f :: files) = before ++ f :: behind ∧ newestFirst files = before ++ behind ∧
      (∀ g ∈ before, f.modified < g.modified) ∧ ∀ g ∈ behind, g.modified ≤ f.modified := by
  have htrans : ∀ f g h : LogFile, decide (g.modified ≤ f.modified) = true → decide (h.modified ≤ g.modified) = true →
      decide (h.modified ≤ f.modified) = true := by
    intro f g h hfg hgh
    rw [decide_eq_true_eq] at *
    omega
  have htotal : ∀ f g : LogFile, (decide (g.modified ≤ f.modified) || decide (f.modified ≤ g.modified)) = true := by
    intro f g
    rw [Bool.or_eq_true, decide_eq_true_eq, decide_eq_true_eq]
    omega
  obtain ⟨before, behind, hcons, hrest, hnewer⟩ := List.mergeSort_cons htrans htotal f files
  refine ⟨before, behind, hcons, hrest, fun g hg => by simpa using hnewer g hg, ?_⟩
  have hsorted := newestFirst_sorted (f :: files)
  rw [newestFirst, hcons] at hsorted
  exact (List.pairwise_cons.1 (List.pairwise_append.1 hsorted).2.1).1

/-- Some of the files, the newest first, stand in the order in which they stand among all. -/
theorem newestFirst_filter (p : LogFile → Bool) (files : List LogFile) :
    newestFirst (files.filter p) = (newestFirst files).filter p := by
  induction files with
  | nil => simp [newestFirst]
  | cons f files ih =>
    obtain ⟨before, behind, hcons, hrest, hbefore, hbehind⟩ := newestFirst_cons f files
    rw [hrest, List.filter_append] at ih
    rw [hcons, List.filter_append]
    by_cases hf : p f = true
    · obtain ⟨before', behind', hcons', hrest', hbefore', hbehind'⟩ := newestFirst_cons f (files.filter p)
      rw [hrest'] at ih
      -- both ways the other files are parted by being newer than the first one
      obtain ⟨rfl, rfl⟩ := parts_unique (q := fun g => decide (f.modified < g.modified))
        (fun g hg => by simpa using hbefore' g hg) (fun g hg => by simpa using hbehind' g hg)
        (fun g hg => by simpa using hbefore g (List.mem_of_mem_filter hg))
        (fun g hg => by simpa using hbehind g (List.mem_of_mem_filter hg)) ih
      rw [List.filter_cons_of_pos hf, List.filter_cons_of_pos hf, hcons']
    · rw [List.filter_cons_of_neg hf, List.filter_cons_of_neg hf, ih]

/-! ### What goes is the end of the order -/

/-- What is chosen by a property that passes on to all that stands behind is the end of a list. -/
private theorem exists_append_filter {α : Type} {q : α → Bool} {xs : List α}
    (h : xs.Pairwise fun x y => q x = true → q y = true) : ∃ ys, xs = ys ++ xs.filter q := by
  induction xs with
  | nil => exact ⟨[], rfl⟩
  | cons x xs ih =>
    obtain ⟨hx, hxs⟩ := List.pairwise_cons.1 h
    by_cases hq : q x = true
    · refine ⟨[], ?_⟩
      rw [List.filter_cons_of_pos hq, List.filter_eq_self.2 fun y hy => hx y hy hq, List.nil_append]
    · obtain ⟨ys, hys⟩ := ih hxs
      refine ⟨x :: ys, ?_⟩
      rw [List.filter_cons_of_neg hq, List.cons_append, ← hys]

private theorem exists_append_due (m a : Nat) (now : Int) (files : List LogFile) :
    ∃ kept, newestFirst files = kept ++ due m a now files := by
  have hpasses : (newestFirst files).zipIdx.Pairwise fun x y =>
      isDue m a now x.2 x.1 = true → isDue m a now y.2 y.1 = true := by
    rw [List.pairwise_iff_getElem]
    intro i j hi hj hij hdue
    rw [List.length_zipIdx] at hi hj
    simp only [List.getElem_zipIdx, Nat.zero_add] at hdue ⊢
    exact isDue_mono hdue (Nat.le_of_lt hij)
      (modified_le (List.getElem?_eq_getElem hi) (List.getElem?_eq_getElem hj) (Nat.le_of_lt hij))
  obtain ⟨kept, hkept⟩ := exists_append_filter hpasses
  refine ⟨kept.map (·.1), ?_⟩
  rw [due, ← List.map_append, ← hkept, List.zipIdx_map_fst]

/-- The files that stay, the newest first, and behind them those that go are all files, the newest first. -/
theorem newestFirst_kept (hfiles : files.Nodup) (m a : Nat) (now : Int) :
    newestFirst (files.filter fun f => decide (f ∉ due m a now files)) ++ due m a now files = newestFirst files := by
  obtain ⟨kept, hkept⟩ := exists_append_due m a now files
  have hnodup : (kept ++ due m a now files).Nodup := hkept ▸ (newestFirst_perm files).nodup_iff.2 hfiles
  have hstays : ∀ f ∈ kept, decide (f ∉ due m a now files) = true := fun f hf =>
    decide_eq_true fun hdue => List.disjoint_of_nodup_append hnodup hf hdue
  have hgoes : ∀ f ∈ due m a now files, ¬ decide (f ∉ due m a now files) = true := fun f hf => by simpa using hf
  have hrest : newestFirst (files.filter fun f => decide (f ∉ due m a now files)) = kept := by
    rw [newestFirst_filter, hkept, List.filter_append, List.filter_eq_self.2 hstays,
      List.filter_eq_nil_iff.2 hgoes, List.append_nil]
  rw [hrest, ← hkept]

/-! ### Two limits -/

/-- The tighter of two limits, where zero is none. -/
def tighter (a b : Nat) : Nat := if a = 0 then b else if b = 0 then a else min a b

/-- Whether a limit lets pass whatever another one does. -/
def IsLooser (a b : Nat) : Prop := b = 0 ∨ a ≠ 0 ∧ a ≤ b

theorem tighter_of_isLooser {b : Nat} (h : IsLooser a b) : tighter a b = a := by
  unfold tighter IsLooser at *
  split_ifs <;> omega

theorem tighter_zero (a : Nat) : tighter a 0 = a := by
  unfold tighter
  split_ifs <;> omega

theorem zero_tighter (b : Nat) : tighter 0 b = b := if_pos rfl

/-- A limit is reached where one of two is exactly if the tighter one is. -/
private theorem limit_tighter (b : Nat) {P : Nat → Prop} (hmono : ∀ k l, k ≤ l → P l → P k) :
    (0 < tighter a b ∧ P (tighter a b)) ↔ (0 < a ∧ P a) ∨ (0 < b ∧ P b) := by
  unfold tighter
  by_cases ha : a = 0
  · simp [ha]
  · by_cases hb : b = 0
    · simp [ha, hb]
    · rw [if_neg ha, if_neg hb]
      rcases Nat.le_total a b with hab | hba
      · rw [Nat.min_eq_left hab]
        exact ⟨Or.inl, fun h => h.elim id fun ⟨_, hp⟩ => ⟨Nat.pos_of_ne_zero ha, hmono a b hab hp⟩⟩
      · rw [Nat.min_eq_right hba]
        exact ⟨Or.inr, fun h => h.elim (fun ⟨_, hp⟩ => ⟨Nat.pos_of_ne_zero hb, hmono b a hba hp⟩) id⟩

theorem isDue_tighter : isDue (tighter m m') (tighter a a') now i f = true ↔
    isDue m a now i f = true ∨ isDue m' a' now i f = true := by
  have hcount := limit_tighter (a := m) m' (P := fun n => n ≤ i) fun k l hkl hl => Nat.le_trans hkl hl
  have hage := limit_tighter (a := a) a' (P := fun n => ((n * dayNanos : Nat) : Int) < now - f.modified)
    fun k l hkl hl => by
      have := Nat.mul_le_mul_right dayNanos hkl
      omega
  rw [isDue_iff, isDue_iff, isDue_iff, hcount, hage, or_or_or_comm]

/-- A second pruning looks at the files where the first one looked at them, so what goes then or went before is what
goes by the tighter limits. -/
theorem mem_due_tighter (hfiles : files.Nodup) : f ∈ due (tighter m m') (tighter a a') now files ↔
    f ∈ due m' a' now (files.filter fun f => decide (f ∉ due m a now files)) ∨ f ∈ due m a now files := by
  have horder := newestFirst_kept hfiles m a now
  constructor
  · intro h
    obtain ⟨i, hf, hdue⟩ := mem_due.1 h
    rcases isDue_tighter.1 hdue with hdue | hdue
    · exact Or.inr (mem_due.2 ⟨i, hf, hdue⟩)
    · rw [← horder, List.getElem?_append] at hf
      split at hf
      · exact Or.inl (mem_due.2 ⟨i, hf, hdue⟩)
      · exact Or.inr (List.mem_of_getElem? hf)
  · rintro (h | h)
    · obtain ⟨i, hf, hdue⟩ := mem_due.1 h
      have hlt := (List.getElem?_eq_some_iff.1 hf).1
      refine mem_due.2 ⟨i, ?_, isDue_tighter.2 (Or.inr hdue)⟩
      rw [← horder, List.getElem?_append_left hlt, hf]
    · obtain ⟨i, hf, hdue⟩ := mem_due.1 h
      exact mem_due.2 ⟨i, hf, isDue_tighter.2 (Or.inl hdue)⟩

theorem due_tighter (hfiles : files.Nodup) (m a m' a' : Nat) (now : Int) :
    due (tighter m m') (tighter a a') now files =
      due m' a' now (files.filter fun f => decide (f ∉ due m a now files)) ++ due m a now files := by
  let kept := files.filter fun f => decide (f ∉ due m a now files)
  have hrest : (files.filter fun f => decide (f ∉ due (tighter m m') (tighter a a') now files)) =
      kept.filter fun f => decide (f ∉ due m' a' now kept) := by
    rw [List.filter_filter]
    apply List.filter_congr
    intro f _
    rw [← Bool.decide_and]
    apply decide_eq_decide.2
    rw [mem_due_tighter hfiles, not_or]
  have hall := newestFirst_kept hfiles (tighter m m') (tighter a a') now
  have hfirst := newestFirst_kept hfiles m a now
  have hsecond := newestFirst_kept (hfiles.filter fun f => decide (f ∉ due m a now files)) m' a' now
  rw [hrest, ← hfirst, ← hsecond, List.append_assoc] at hall
  exact List.append_cancel_left hall

/-! ### Two prunings -/

/-- Log files all of which can be deleted. -/
structure Prunable (s : LoggingSettings) (d : Disk) : Prop where
  named : IsNamed d s.directory
  deletes : ∀ f ∈ logFiles s d, ∃ d', d.remove (join s.directory f.name) = .ok d'

/-- The settings with other limits. -/
def limited (s : LoggingSettings) (maxFiles maxAgeDays : UInt32) : LoggingSettings :=
  { s with maxFiles, maxAgeDays }

section

variable {s : LoggingSettings} {d : Disk} {place : List String} {es : List (String × Entry)}

/-- By any limits the files that are due, which are all files, are taken out of their directory. -/
theorem Prunable.prune_eq (h : Prunable s d) (hplace : d.resolve true s.directory = .ok place)
    (hes : d.root.find? place = some (.directory es)) (now : Int) (m a : UInt32) :
    let going := due m.toNat a.toNat now (logFiles s d)
    (prune (limited s m a) now d).disk = d.without place (going.map (·.name)) ∧
      ∀ name ∈ going.map (·.name), ∀ x, d.root.find? (place ++ [name]) = some x → x.IsFile := by
  intro going
  obtain ⟨place', hplace', hfile, hdisk, -⟩ := prune_eq_without (s := limited s m a) now h.named h.deletes
  have hresolve := hplace' es (Disk.list_eq_ok_iff.2 ⟨place, hplace, hes⟩)
  obtain rfl : place = place' := Except.ok.inj (hplace.symm.trans hresolve)
  refine ⟨hdisk, fun name hname => ?_⟩
  obtain ⟨f, hf, rfl⟩ := List.mem_map.1 hname
  exact hfile f hf

theorem logFiles_prune (h : Prunable s d) (now : Int) (m a : UInt32) :
    logFiles s (prune (limited s m a) now d).disk =
      (logFiles s d).filter fun f => decide (f ∉ due m.toNat a.toNat now (logFiles s d)) := by
  obtain ⟨-, -, -, -, -, hleft⟩ := prune_eq_without (s := limited s m a) now h.named h.deletes
  exact hleft

theorem deleted_prune (h : Prunable s d) (now : Int) (m a : UInt32) :
    (prune (limited s m a) now d).deleted = (due m.toNat a.toNat now (logFiles s d)).length := by
  obtain ⟨-, -, -, -, hdeleted, -⟩ := prune_eq_without (s := limited s m a) now h.named h.deletes
  exact hdeleted

/-- The log files that a pruning leaves can still be deleted. -/
theorem Prunable.prune (h : Prunable s d) (now : Int) (m a : UInt32) :
    Prunable s (prune (limited s m a) now d).disk := by
  cases hlist : d.list s.directory with
  | error fault =>
    rw [(prune_of_not_list (s := limited s m a) now hlist).1]
    exact h
  | ok es =>
    obtain ⟨place, hplace, hes⟩ := Disk.list_eq_ok_iff.1 hlist
    obtain ⟨hdisk, hgone⟩ := h.prune_eq hplace hes now m a
    refine ⟨fun es' hes' => ?_, fun f hf => ?_⟩
    · rw [hdisk, Disk.list_without hplace hes hgone] at hes'
      obtain rfl := Except.ok.inj hes'
      obtain ⟨hplain, hnodup⟩ := h.named es hlist
      exact ⟨fun x hx => hplain x (List.mem_of_mem_filter hx), (List.filter_sublist.map _).nodup hnodup⟩
    · rw [logFiles_prune h, List.mem_filter, decide_eq_true_eq] at hf
      obtain ⟨hmem, hstays⟩ := hf
      obtain ⟨d', hremove⟩ := h.deletes f hmem
      have hname : f.name ∉ (due m.toNat a.toNat now (logFiles s d)).map (·.name) := by
        intro hname
        obtain ⟨g, hg, hgf⟩ := List.mem_map.1 hname
        exact hstays (eq_of_name_eq h.named (mem_of_mem_due hg) hmem hgf ▸ hg)
      rw [hdisk]
      exact ⟨_, Disk.remove_without hplace hes hgone (file_of_mem h.named hplace hes hmem).1 hname hremove⟩

/-- Two prunings leave the disk that one by the tighter limits leaves, and delete as many files together. -/
theorem prune_prune (h : Prunable s d) (now : Int) (m a m' a' m'' a'' : UInt32)
    (hm : m''.toNat = tighter m.toNat m'.toNat) (ha : a''.toNat = tighter a.toNat a'.toNat) :
    let once := prune (limited s m a) now d
    let twice := prune (limited s m' a') now once.disk
    let both := prune (limited s m'' a'') now d
    twice.disk = both.disk ∧ once.deleted + twice.deleted = both.deleted := by
  intro once twice both
  have honce : Prunable s once.disk := h.prune now m a
  let going := due m.toNat a.toNat now (logFiles s d)
  let going' := due m'.toNat a'.toNat now (logFiles s once.disk)
  have hgoing : due m''.toNat a''.toNat now (logFiles s d) = going' ++ going := by
    have hnodup : (logFiles s d).Nodup := (nodup_names h.named).of_map _
    have hkept : logFiles s once.disk = (logFiles s d).filter fun f => decide (f ∉ going) := logFiles_prune h now m a
    show _ = due m'.toNat a'.toNat now (logFiles s once.disk) ++ going
    rw [hm, ha, hkept]
    exact due_tighter hnodup m.toNat a.toNat m'.toNat a'.toNat now
  constructor
  · cases hlist : d.list s.directory with
    | error fault =>
      -- what cannot be listed is left alone three times
      have hdisk : once.disk = d := (prune_of_not_list (s := limited s m a) now hlist).1
      have hdisk' : twice.disk = once.disk :=
        (prune_of_not_list (s := limited s m' a') now (hdisk.symm ▸ hlist)).1
      have hdisk'' : both.disk = d := (prune_of_not_list (s := limited s m'' a'') now hlist).1
      rw [hdisk', hdisk, hdisk'']
    | ok es =>
      obtain ⟨place, hplace, hes⟩ := Disk.list_eq_ok_iff.1 hlist
      obtain ⟨hdisk, hgone⟩ := h.prune_eq hplace hes now m a
      have hfirst : once.disk = d.without place (going.map (·.name)) := hdisk
      have hplace' : once.disk.resolve true s.directory = .ok place := by
        rw [hfirst]
        exact Disk.resolve_without hgone hplace hes
      have hes' : once.disk.root.find? place = some (.directory (es.filter fun x =>
          decide (x.1 ∉ going.map (·.name)))) := by
        rw [hfirst]
        exact Entry.find?_without_self hes
      have hdisk' : twice.disk = once.disk.without place (going'.map (·.name)) :=
        (honce.prune_eq hplace' hes' now m' a').1
      have hdisk'' : both.disk = d.without place ((going' ++ going).map (·.name)) :=
        hgoing ▸ (h.prune_eq hplace hes now m'' a'').1
      rw [hdisk', hdisk'', hfirst, Disk.without_without]
      apply Disk.without_congr
      intro name
      rw [List.map_append, List.mem_append, List.mem_append, or_comm]
  · have hcount : once.deleted = going.length := deleted_prune h now m a
    have hcount' : twice.deleted = going'.length := deleted_prune honce now m' a'
    have hcount'' : both.deleted = (going' ++ going).length := hgoing ▸ deleted_prune h now m'' a''
    rw [hcount, hcount', hcount'', List.length_append, Nat.add_comm]

end

/-- Where all log files can be deleted, pruning them again at the same time, by the same limits or by looser ones,
deletes nothing and leaves the disk as it is; and pruning them by both limits leaves the disk that pruning by the one
and then by the other leaves, in either order, with as many files deleted. -/
theorem prune_composes (s : LoggingSettings) (now : Int) (d : Disk) (hlog : IsNamed d s.directory)
    (hdeletes : ∀ f ∈ logFiles s d, ∃ d', d.remove (join s.directory f.name) = .ok d') :
    let m := s.maxFiles
    let days := s.maxAgeDays
    let p := prune s now d
    let counted := prune (limited s m 0) now d
    let dated := prune (limited s 0 days) now d
    let countedDated := prune (limited s 0 days) now counted.disk
    let datedCounted := prune (limited s m 0) now dated.disk
    (∀ m' days' : UInt32, IsLooser m.toNat m'.toNat → IsLooser days.toNat days'.toNat →
      let again := prune (limited s m' days') now p.disk
      again.deleted = 0 ∧ again.disk = p.disk) ∧
    IsLooser m.toNat m.toNat ∧ IsLooser days.toNat days.toNat ∧
    p.disk = countedDated.disk ∧ p.deleted = counted.deleted + countedDated.deleted ∧
    p.disk = datedCounted.disk ∧ p.deleted = dated.deleted + datedCounted.deleted := by
  intro m days p counted dated countedDated datedCounted
  have h : Prunable s d := ⟨hlog, hdeletes⟩
  have hself : ∀ a, IsLooser a a := fun a => by unfold IsLooser; omega
  obtain ⟨hcountedDated, hcount⟩ := prune_prune h now m 0 0 days m days
    (tighter_zero m.toNat).symm (zero_tighter days.toNat).symm
  obtain ⟨hdatedCounted, hcount'⟩ := prune_prune h now 0 days m 0 m days
    (zero_tighter m.toNat).symm (tighter_zero days.toNat).symm
  refine ⟨fun m' days' hm hdays => ?_, hself _, hself _, hcountedDated.symm, hcount.symm, hdatedCounted.symm,
    hcount'.symm⟩
  obtain ⟨hdisk, hdeleted⟩ := prune_prune h now m days m' days' m days
    (tighter_of_isLooser hm).symm (tighter_of_isLooser hdays).symm
  exact ⟨Nat.add_left_cancel hdeleted, hdisk⟩

/-- Of two files that were changed at one moment the one listed first stays, whether the age of a third is looked at
before or after; and no limit that is looser takes the one that stayed. -/
theorem prune_composes_tie :
    let s : LoggingSettings := { filePrefix := "app", maxFiles := 1, maxAgeDays := 1 }
    let d : Disk := ⟨.directory [("logs", .directory [("app.old", .file [] false (-90000000000000)),
      ("app.b", .file [] false 20), ("app.a", .file [] false 20)])], []⟩
    IsNamed d "logs" ∧ (∀ f ∈ logFiles s d, ∃ d', d.remove (join "logs" f.name) = .ok d') ∧
      logFiles s (prune s 50 d).disk = [⟨"app.b", 20⟩] ∧
      logFiles s (prune (limited s 1 0) 50 (prune (limited s 0 1) 50 d).disk).disk = [⟨"app.b", 20⟩] ∧
      (prune (limited s 5 0) 50 (prune s 50 d).disk).deleted = 0 := by
  intro s d
  have hfiles : logFiles s d = [⟨"app.old", -90000000000000⟩, ⟨"app.b", 20⟩, ⟨"app.a", 20⟩] := by decide
  have hlog : IsNamed d "logs" := by
    intro es hes
    obtain rfl := Except.ok.inj hes
    exact ⟨by decide, by decide⟩
  have hdeletes : ∀ f ∈ logFiles s d, ∃ d', d.remove (join "logs" f.name) = .ok d' := by
    intro f hf
    rw [hfiles] at hf
    simp only [List.mem_cons, List.not_mem_nil, or_false] at hf
    rcases hf with rfl | rfl | rfl <;> exact ⟨_, rfl⟩
  obtain ⟨hagain, -, -, -, -, hdisk, -⟩ := prune_composes s 50 d hlog hdeletes
  have hkept : logFiles s (prune s 50 d).disk =
      (logFiles s d).filter fun f => decide (f ∉ due 1 1 50 (logFiles s d)) := logFiles_prune ⟨hlog, hdeletes⟩ 50 1 1
  have horder : newestFirst [⟨"app.old", -90000000000000⟩, ⟨"app.b", 20⟩, ⟨"app.a", 20⟩] =
      [⟨"app.b", 20⟩, ⟨"app.a", 20⟩, ⟨"app.old", -90000000000000⟩] := by
    simp [newestFirst, List.mergeSort, List.MergeSort.Internal.splitInTwo]
  have hdue : due 1 1 50 [⟨"app.old", -90000000000000⟩, ⟨"app.b", 20⟩, ⟨"app.a", 20⟩] =
      [⟨"app.a", 20⟩, ⟨"app.old", -90000000000000⟩] := by
    rw [due, horder]
    decide
  have hleft : logFiles s (prune s 50 d).disk = [⟨"app.b", 20⟩] := by
    rw [hkept, hfiles, hdue]
    decide
  refine ⟨hlog, hdeletes, hleft, hdisk ▸ hleft, ?_⟩
  exact (hagain 5 0 (Or.inr (by decide)) (Or.inl rfl)).1

end AppLauncher.Logs
