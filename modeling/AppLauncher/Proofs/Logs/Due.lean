import AppLauncher.Logs.Pruning

/-!
# Which log files go

The log files are looked at with the newest first.  A file goes if it is too old or if too many stand before it, and
then all that stand behind it go too (`isDue_mono`).  So at most as many stay as may (`length_kept_le`), none that is
too old stays (`age_of_notMem_due`), no file goes without a reason (`cause_of_mem_due`), and with a file all older ones
go (`mem_due_of_older`).
-/

namespace AppLauncher.Logs

variable {files : List LogFile} {f g : LogFile} {m a i j : Nat} {now : Int}

/-! ### The order of the files -/

theorem newestFirst_perm (files : List LogFile) : (newestFirst files).Perm files := List.mergeSort_perm files _

theorem newestFirst_sorted (files : List LogFile) :
    (newestFirst files).Pairwise fun f g => g.modified ≤ f.modified := by
  have hsorted : (newestFirst files).Pairwise fun f g => decide (g.modified ≤ f.modified) = true :=
    List.pairwise_mergeSort (fun f g h hfg hgh => by simp only [decide_eq_true_eq] at *; omega)
      (fun f g => by simp only [Bool.or_eq_true, decide_eq_true_eq]; omega) files
  exact hsorted.imp fun h => by simpa using h

theorem modified_le (hf : (newestFirst files)[i]? = some f) (hg : (newestFirst files)[j]? = some g) (hij : i ≤ j) :
    g.modified ≤ f.modified := by
  obtain ⟨hi, rfl⟩ := List.getElem?_eq_some_iff.1 hf
  obtain ⟨hj, rfl⟩ := List.getElem?_eq_some_iff.1 hg
  rcases Nat.lt_or_eq_of_le hij with hlt | rfl
  · exact List.pairwise_iff_getElem.1 (newestFirst_sorted files) i j hi hj hlt
  · exact Int.le_refl _

theorem exists_index (hf : f ∈ files) : ∃ i : Nat, (newestFirst files)[i]? = some f :=
  List.mem_iff_getElem?.1 ((newestFirst_perm files).mem_iff.2 hf)

/-! ### The files that go -/

theorem isDue_iff : isDue m a now i f = true ↔
    (0 < m ∧ m ≤ i) ∨ (0 < a ∧ ((a * dayNanos : Nat) : Int) < now - f.modified) := by
  simp [isDue]

/-- What stands behind a file that goes, and is not newer, goes as well. -/
theorem isDue_mono (h : isDue m a now i f = true) (hij : i ≤ j) (hold : g.modified ≤ f.modified) :
    isDue m a now j g = true := by
  rw [isDue_iff] at h ⊢
  rcases h with ⟨hm, hi⟩ | ⟨ha, hage⟩
  · exact Or.inl ⟨hm, by omega⟩
  · exact Or.inr ⟨ha, by omega⟩

theorem mem_due : f ∈ due m a now files ↔ ∃ i, (newestFirst files)[i]? = some f ∧ isDue m a now i f = true := by
  simp only [due, List.mem_map, List.mem_filter, Prod.exists, List.mem_zipIdx_iff_getElem?]
  constructor
  · rintro ⟨_, i, ⟨hf, hdue⟩, rfl⟩
    exact ⟨i, hf, hdue⟩
  · rintro ⟨i, hf, hdue⟩
    exact ⟨f, i, ⟨hf, hdue⟩, rfl⟩

theorem due_sublist (m a : Nat) (now : Int) (files : List LogFile) :
    (due m a now files).Sublist (newestFirst files) := by
  have hsub : (due m a now files).Sublist ((newestFirst files).zipIdx.map (·.1)) := List.filter_sublist.map _
  rw [List.zipIdx_map_fst] at hsub
  exact hsub

theorem mem_of_mem_due (h : f ∈ due m a now files) : f ∈ files :=
  (newestFirst_perm files).mem_iff.1 ((due_sublist m a now files).subset h)

theorem nodup_due (h : files.Nodup) : (due m a now files).Nodup :=
  (due_sublist m a now files).nodup ((newestFirst_perm files).nodup_iff.2 h)

theorem due_unlimited (now : Int) (files : List LogFile) : due 0 0 now files = [] := by
  apply List.eq_nil_iff_forall_not_mem.2
  intro f hf
  obtain ⟨i, -, hdue⟩ := mem_due.1 hf
  rcases isDue_iff.1 hdue with ⟨h, -⟩ | ⟨h, -⟩ <;> exact absurd h (Nat.lt_irrefl 0)

/-- A file goes because it is too old, or because there are enough other files that are not older. -/
theorem cause_of_mem_due (hfiles : files.Nodup) (h : f ∈ due m a now files) :
    (0 < a ∧ ((a * dayNanos : Nat) : Int) < now - f.modified) ∨
      (0 < m ∧ m ≤ (files.filter fun g => decide (g ≠ f ∧ f.modified ≤ g.modified)).length) := by
  obtain ⟨i, hf, hdue⟩ := mem_due.1 h
  rcases isDue_iff.1 hdue with ⟨hm, hi⟩ | hage
  · right
    refine ⟨hm, Nat.le_trans hi ?_⟩
    obtain ⟨hlt, hfi⟩ := List.getElem?_eq_some_iff.1 hf
    have hnodup := (newestFirst_perm files).nodup_iff.2 hfiles
    -- the files that stand before it
    have hbefore : ∀ g ∈ (newestFirst files).take i, decide (g ≠ f ∧ f.modified ≤ g.modified) = true := by
      intro g hg
      obtain ⟨j, hj, hgj⟩ := List.mem_take_iff_getElem.1 hg
      have hji : j < i := by omega
      have hne : g ≠ f := hgj ▸ hfi ▸ List.pairwise_iff_getElem.1 hnodup j i (by omega) hlt hji
      have hle : f.modified ≤ g.modified :=
        modified_le (List.getElem?_eq_some_iff.2 ⟨by omega, hgj⟩) hf (Nat.le_of_lt hji)
      exact decide_eq_true ⟨hne, hle⟩
    calc i = ((newestFirst files).take i).length := by rw [List.length_take]; omega
      _ = (((newestFirst files).take i).filter fun g => decide (g ≠ f ∧ f.modified ≤ g.modified)).length := by
        rw [List.filter_eq_self.2 hbefore]
      _ ≤ ((newestFirst files).filter fun g => decide (g ≠ f ∧ f.modified ≤ g.modified)).length :=
        ((List.take_sublist i _).filter _).length_le
      _ = (files.filter fun g => decide (g ≠ f ∧ f.modified ≤ g.modified)).length :=
        ((newestFirst_perm files).filter _).length_eq
  · exact Or.inl hage

theorem mem_due_of_older (h : f ∈ due m a now files) (hg : g ∈ files) (hold : g.modified < f.modified) :
    g ∈ due m a now files := by
  obtain ⟨i, hf, hdue⟩ := mem_due.1 h
  obtain ⟨j, hgj⟩ := exists_index hg
  have hij : i ≤ j := by
    apply Nat.le_of_not_lt
    intro hji
    have := modified_le hgj hf (Nat.le_of_lt hji)
    omega
  exact mem_due.2 ⟨j, hgj, isDue_mono hdue hij (Int.le_of_lt hold)⟩

/-! ### The files that stay -/

theorem age_of_notMem_due (ha : 0 < a) (hf : f ∈ files) (h : f ∉ due m a now files) :
    now - f.modified ≤ ((a * dayNanos : Nat) : Int) := by
  obtain ⟨i, hfi⟩ := exists_index hf
  apply Int.not_lt.1
  intro hage
  exact h (mem_due.2 ⟨i, hfi, isDue_iff.2 (Or.inr ⟨ha, hage⟩)⟩)

theorem length_kept_le (hm : 0 < m) :
    (files.filter fun f => decide (f ∉ due m a now files)).length ≤ m := by
  -- every file with `m` files before it goes
  have hbehind : ∀ f ∈ (newestFirst files).drop m, ¬ decide (f ∉ due m a now files) = true := by
    intro f hf
    obtain ⟨i, hi, hfi⟩ := List.mem_drop_iff_getElem.1 hf
    have hmem : f ∈ due m a now files :=
      mem_due.2 ⟨m + i, List.getElem?_eq_some_iff.2 ⟨by omega, hfi⟩, isDue_iff.2 (Or.inl ⟨hm, by omega⟩)⟩
    simpa using hmem
  calc (files.filter fun f => decide (f ∉ due m a now files)).length
      = ((newestFirst files).filter fun f => decide (f ∉ due m a now files)).length :=
        ((newestFirst_perm files).filter _).length_eq.symm
    _ = (((newestFirst files).take m).filter fun f => decide (f ∉ due m a now files)).length := by
        rw [← List.take_append_drop m (newestFirst files), List.filter_append, List.filter_eq_nil_iff.2 hbehind]
        simp
    _ ≤ ((newestFirst files).take m).length := List.length_filter_le _ _
    _ ≤ m := List.length_take_le m _

/-- The files that go are as many as are missing then. -/
theorem length_due (hfiles : files.Nodup) :
    (due m a now files).length = (files.filter fun f => decide (f ∈ due m a now files)).length := by
  apply List.Perm.length_eq
  rw [List.perm_ext_iff_of_nodup (nodup_due hfiles) (hfiles.filter _)]
  intro f
  rw [List.mem_filter, decide_eq_true_eq]
  exact ⟨fun h => ⟨mem_of_mem_due h, h⟩, fun h => h.2⟩

end AppLauncher.Logs
