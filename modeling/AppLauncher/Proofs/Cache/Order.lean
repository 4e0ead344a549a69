import AppLauncher.Proofs.Cache.Attempts

/-!
# The order of a listing

Where each entry has a result of its own, whatever else is deleted (`IsSteady`), the order of the listing does not
matter: a clearing either passes every entry or ends at one that ends it (`clearListed_steady`).  So it comes to the
same in any order, and a second clearing finds nothing to delete (`clear_order`).  A directory without links has such
entries (`isSteady_of_noLinks`).
-/

namespace AppLauncher.Cache

open AppLauncher.Storage

/-- The fault of an operation that failed. -/
def fault? {σ : Type} : Except Fault σ → Option Fault
  | .ok _ => none
  | .error f => some f

/-- A directory with all its entries among some names, where each name has a result of its own: to delete it fails with
the same fault or not at all, whatever other names have been deleted. -/
structure IsSteady (settings : CacheSettings) (fails? : String → Disk → Option Fault) (d : Disk) (place : List String)
    (names : List String) (result : String → Option Fault) : Prop where
  resolve_eq : d.resolve true settings.directory = .ok place
  complete : ∃ es, d.root.find? place = some (.directory es) ∧ ∀ x ∈ es, x.1 ∈ names
  isEntryName : ∀ name ∈ names, IsEntryName name
  nodup : names.Nodup
  fault?_eq : ∀ gone name, (∀ n ∈ gone, n ∈ names ∧ result n = none) → name ∈ names → name ∉ gone →
    fault? (removing fails? (join settings.directory name) (d.without place gone)) = result name

/-- A clearing that was ended by an entry. -/
def IsUndeleted (result : Except LauncherError Report) : Prop :=
  ∃ path kind f, result = .error (.cacheDelete path kind f)

/-- Some entry's failure ends a clearing. -/
def Aborts (settings : CacheSettings) (names : List String) (result : String → Option Fault) : Prop :=
  ∃ name ∈ names, ∃ f, result name = some f ∧ settings.actionFor (.classify f) = .abort

/-- What reading a directory gives if nothing goes wrong. -/
def listingOf (names : List String) : Except Fault (List (Except Fault String)) := .ok (names.map .ok)

theorem fault?_eq_some_iff {σ : Type} {r : Except Fault σ} {f : Fault} : fault? r = some f ↔ r = .error f := by
  cases r <;> simp [fault?]

/-! ### Directories without links -/

section Disk

variable {settings : CacheSettings} {d : Disk} {directory name : String} {place gone names : List String}
  {es : List (String × Entry)}

/-- Why the entry of some name in a directory cannot be deleted. -/
def removalFault? (directory name : String) (e? : Option Entry) : Option Fault :=
  match pathFault? (join directory name) with
  | some f => some f
  | none =>
    if 255 < Text.Utf8.size name then some Fault.longName
    else
      match e? with
      | none => some Fault.missing
      | some (.directory _) => some Fault.isDirectory
      | some _ => none

theorem fault?_remove_join (hplace : d.resolve true directory = .ok place)
    (hes : d.root.find? place = some (.directory es)) (h : IsEntryName name) :
    fault? (d.remove (join directory name)) = removalFault? directory name (es.lookup name) := by
  unfold removalFault?
  cases hpath : pathFault? (join directory name) with
  | some f => simp [Disk.remove, Disk.resolve, hpath, bind, Except.bind, fault?]
  | none =>
    have hresolve := resolve_join (pathFault?_of_resolve hplace) h hpath d
    rw [hplace] at hresolve
    have hchild := Entry.find?_child hes name
    unfold Disk.remove
    rw [hresolve]
    by_cases hlong : 255 < Text.Utf8.size name
    · simp [Except.bind, entryPlace, hes, hlong, bind, fault?]
    · cases hx : es.lookup name with
      | none => simp [Except.bind, entryPlace, hes, hlong, hx, bind, fault?]
      | some x =>
        rw [hx] at hchild
        cases x <;> simp [Except.bind, entryPlace, hes, hlong, hx, hchild, bind, pure, Except.pure, fault?]

theorem isDirectory_of_removalFault? {e : Entry} (h : removalFault? directory name (some e) = none) :
    e.isDirectory = false := by
  unfold removalFault? at h
  cases e with
  | directory =>
    split at h
    · cases h
    · split at h <;> cases h
  | file => rfl
  | link => rfl

theorem fault?_removing (faults : String → Option Fault) (path : String) (d : Disk) :
    fault? (removing (fun path _ => faults path) path d) = (faults path).or (fault? (d.remove path)) := by
  cases h : faults path <;> simp [removing, fault?, h]

/-- In a directory of files and directories each entry has its own result, if deletions fail otherwise only by their
paths. -/
theorem isSteady_of_noLinks {faults : String → Option Fault} (hplace : d.resolve true settings.directory = .ok place)
    (hes : d.root.find? place = some (.directory es)) (hkinds : ∀ x ∈ es, x.2.IsFile ∨ x.2.isDirectory = true)
    (hcomplete : ∀ x ∈ es, x.1 ∈ names) (hnames : ∀ name ∈ names, IsEntryName name) (hnodup : names.Nodup) :
    IsSteady settings (fun path _ => faults path) d place names
      (fun name => fault? (removing (fun path _ => faults path) (join settings.directory name) d)) where
  resolve_eq := hplace
  complete := ⟨es, hes, hcomplete⟩
  isEntryName := hnames
  nodup := hnodup
  fault?_eq := by
    intro gone name hgone hname hnot
    -- only files have been deleted, so the path of the directory leads where it led
    have hfiles : ∀ n ∈ gone, ∀ x, d.root.find? (place ++ [n]) = some x → x.IsFile := by
      intro n hn x hx
      obtain ⟨hlisted, hdeletable⟩ := hgone n hn
      rw [fault?_removing, Option.or_eq_none_iff] at hdeletable
      have hremoval := hdeletable.2
      rw [Entry.find?_child hes] at hx
      rw [fault?_remove_join hplace hes (hnames n hlisted), hx] at hremoval
      obtain ⟨before, after, hes', -⟩ := List.lookup_eq_some_iff.1 hx
      rcases hkinds (n, x) (hes' ▸ by simp) with hfile | hdirectory
      · exact hfile
      · rw [isDirectory_of_removalFault? hremoval] at hdirectory
        cases hdirectory
    have hlookup : (es.filter fun x => decide (x.1 ∉ gone)).lookup name = es.lookup name := by
      rw [Document.lookup_filter (fun n => decide (n ∉ gone)), if_pos (by simpa using hnot)]
    rw [fault?_removing, fault?_removing,
      fault?_remove_join (Disk.resolve_without hfiles hplace hes) (Entry.find?_without_self hes) (hnames name hname),
      fault?_remove_join hplace hes (hnames name hname), hlookup]

end Disk

/-! ### Clearings of a steady directory -/

section Steady

variable {settings : CacheSettings} {fails? : String → Disk → Option Fault} {d s t : Disk}
  {place gone names names' : List String} {result : String → Option Fault} {as : List Attempt}

theorem IsSteady.perm (h : IsSteady settings fails? d place names result) (hperm : names.Perm names') :
    IsSteady settings fails? d place names' result where
  resolve_eq := h.resolve_eq
  complete := by
    obtain ⟨es, hes, hall⟩ := h.complete
    exact ⟨es, hes, fun x hx => hperm.mem_iff.1 (hall x hx)⟩
  isEntryName := fun name hname => h.isEntryName name (hperm.mem_iff.2 hname)
  nodup := hperm.nodup_iff.1 h.nodup
  fault?_eq := by
    intro gone name hgone hname hnot
    exact h.fault?_eq gone name (fun n hn => ⟨hperm.mem_iff.2 (hgone n hn).1, (hgone n hn).2⟩)
      (hperm.mem_iff.2 hname) hnot

/-- Every entry that is passed has its own result, and none that ends the clearing. -/
theorem Passes.result_eq (h : IsSteady settings fails? d place names result)
    (hpasses : Passes settings (removing fails?) s as t) (hs : s = d.without place gone)
    (hgone : ∀ n ∈ gone, n ∈ names ∧ result n = none) (has : ∀ a ∈ as, a.name ∈ names ∧ a.name ∉ gone)
    (hnodup : (as.map (·.name)).Nodup) :
    ∀ a ∈ as, a.fault? = result a.name ∧ ∀ f, a.fault? = some f → settings.actionFor (.classify f) = .skip := by
  obtain ⟨es, hes, -⟩ := h.complete
  -- a deletion adds one name to those that are gone
  induction hpasses generalizing gone with
  | nil s => simp
  | @deleted s t u name as hr hpasses ih =>
    subst hs
    rw [List.map_cons, List.nodup_cons] at hnodup
    obtain ⟨hname, hnot⟩ := has _ List.mem_cons_self
    have hresult : result name = none := by
      rw [← h.fault?_eq gone name hgone hname hnot, hr]
      rfl
    obtain ⟨ht, -⟩ := Disk.remove_without_eq_ok h.resolve_eq hes (h.isEntryName name hname) (remove_of_removing hr)
    have hgone' : ∀ n ∈ gone ++ [name], n ∈ names ∧ result n = none := by
      intro n hn
      rcases List.mem_append.1 hn with hn | hn
      · exact hgone n hn
      · obtain rfl := List.mem_singleton.1 hn
        exact ⟨hname, hresult⟩
    have has' : ∀ a ∈ as, a.name ∈ names ∧ a.name ∉ gone ++ [name] := by
      intro a ha
      obtain ⟨hmem, hkept⟩ := has a (List.mem_cons_of_mem _ ha)
      have hne : a.name ≠ name := fun heq => hnodup.1 (List.mem_map.2 ⟨a, ha, heq⟩)
      exact ⟨hmem, by simp [hkept, hne]⟩
    intro a ha
    rcases List.mem_cons.1 ha with rfl | ha
    · exact ⟨hresult.symm, by simp⟩
    · exact ih ht hgone' has' hnodup.2 a ha
  | @skipped s u name f as hr hskip hpasses ih =>
    rw [List.map_cons, List.nodup_cons] at hnodup
    obtain ⟨hname, hnot⟩ := has _ List.mem_cons_self
    have hresult : result name = some f := by
      rw [← h.fault?_eq gone name hgone hname hnot, ← hs, hr]
      rfl
    intro a ha
    rcases List.mem_cons.1 ha with rfl | ha
    · refine ⟨hresult.symm, fun f' hf' => ?_⟩
      obtain rfl := Option.some.inj hf'
      exact hskip
    · exact ih hs hgone (fun a ha => has a (List.mem_cons_of_mem _ ha)) hnodup.2 a ha

/-- Where each entry fails, nothing is deleted. -/
theorem Passes.of_errors {σ : Type} {remove : String → σ → Except Fault σ} {s t : σ}
    (hpasses : Passes settings remove s as t)
    (h : ∀ a ∈ as, ∃ f, remove (join settings.directory a.name) s = .error f) :
    t = s ∧ ∀ a ∈ as, a.fault?.isSome := by
  induction hpasses with
  | nil s => simp
  | deleted hr _ _ =>
    obtain ⟨f, hf⟩ := h _ List.mem_cons_self
    rw [hr] at hf
    cases hf
  | skipped _ _ _ ih =>
    obtain ⟨hstate, hfaults⟩ := ih fun a ha => h a (List.mem_cons_of_mem _ ha)
    refine ⟨hstate, fun a ha => ?_⟩
    rcases List.mem_cons.1 ha with rfl | ha
    · rfl
    · exact hfaults a ha

private theorem names_of_listed {left : List (Except Fault String)} (h : names.map Except.ok = listed as ++ left) :
    ∃ rest, names = as.map (·.name) ++ rest ∧ left = rest.map .ok := by
  obtain ⟨tried, rest, rfl, htried, hrest⟩ := List.map_eq_append_iff.1 h
  refine ⟨rest, ?_, hrest.symm⟩
  have hinj : Function.Injective (Except.ok : String → Except Fault String) := fun _ _ heq => Except.ok.inj heq
  have hmap : tried.map Except.ok = (as.map (·.name)).map (Except.ok : String → Except Fault String) := by
    simp [htried, listed]
  rw [List.map_injective_iff.2 hinj hmap]

theorem mem_deleted_iff (has : ∀ a ∈ as, a.fault? = result a.name) (name : String) :
    name ∈ deleted as ↔ name ∈ (as.map (·.name)).filter fun n => (result n).isNone := by
  simp only [deleted, List.mem_map, List.mem_filter]
  constructor
  · rintro ⟨a, ⟨ha, hnone⟩, rfl⟩
    exact ⟨⟨a, ha, rfl⟩, has a ha ▸ hnone⟩
  · rintro ⟨⟨a, ha, rfl⟩, hnone⟩
    exact ⟨a, ⟨ha, (has a ha).symm ▸ hnone⟩, rfl⟩

/-- A clearing passes all entries and deletes those that can be deleted, or an entry ends it. -/
theorem clearListed_steady (h : IsSteady settings fails? d place names result) :
    let c := clearListed settings (removing fails?) (listingOf names) d
    (¬ Aborts settings names result ∧
      c.result = .ok ⟨names.countP fun n => (result n).isNone, names.countP fun n => (result n).isSome⟩ ∧
      c.state = d.without place (names.filter fun n => (result n).isNone)) ∨
    (Aborts settings names result ∧ IsUndeleted c.result) := by
  intro c
  obtain ⟨es, hes, -⟩ := h.complete
  obtain ⟨as, left, hitems, hpasses, hends⟩ :=
    clearListed_ends settings (removing fails?) (listingOf names) d
  obtain ⟨rest, hnames, hleft⟩ := names_of_listed hitems
  have hnodup : (as.map (·.name) ++ rest).Nodup := hnames ▸ h.nodup
  have hmem : ∀ a ∈ as, a.name ∈ names := fun a ha => hnames ▸ List.mem_append_left _ (List.mem_map_of_mem ha)
  have hresults := hpasses.result_eq h (Disk.without_nil d place).symm (by simp) (fun a ha => ⟨hmem a ha, by simp⟩)
    hnodup.of_append_left
  have hstate := (hpasses.state_eq h.resolve_eq hes (fun a ha => h.isEntryName _ (hmem a ha))
    (Disk.without_nil d place).symm).1
  generalize hresult : c.result = r
  rw [hresult] at hends
  cases hends with
  | cleared =>
    obtain rfl : rest = [] := by simpa using hleft.symm
    rw [List.append_nil] at hnames
    refine Or.inl ⟨?_, ?_, ?_⟩
    · rintro ⟨name, hname, f, hf, habort⟩
      rw [hnames] at hname
      obtain ⟨a, ha, rfl⟩ := List.mem_map.1 hname
      obtain ⟨heq, hskip⟩ := hresults a ha
      rw [hskip f (heq.trans hf)] at habort
      cases habort
    · have hremoved : as.countP (·.fault?.isNone) = as.countP fun a => (result a.name).isNone :=
        List.countP_congr fun a ha => by rw [(hresults a ha).1]
      have hskipped : as.countP (·.fault?.isSome) = as.countP fun a => (result a.name).isSome :=
        List.countP_congr fun a ha => by rw [(hresults a ha).1]
      simp only [Report.after, hnames, List.countP_map, Function.comp_def, hremoved, hskipped, Nat.zero_add]
    · rw [hnames, hstate]
      exact Disk.without_congr (mem_deleted_iff fun a ha => (hresults a ha).1) d place
  | unlisted f rest' =>
    exfalso
    cases rest <;> cases hleft
  | undeleted name f rest' hr habort =>
    obtain ⟨rest, rfl⟩ : ∃ rest'', rest = name :: rest'' := by
      cases rest with
      | nil => cases hleft
      | cons n rest =>
        obtain ⟨hn, -⟩ := List.cons.inj hleft
        exact ⟨rest, by rw [Except.ok.inj hn]⟩
    have hname : name ∈ names := by
      rw [hnames]
      simp
    have hgone : ∀ n ∈ deleted as, n ∈ names ∧ result n = none := by
      intro n hn
      rw [mem_deleted_iff fun a ha => (hresults a ha).1, List.mem_filter, Option.isNone_iff_eq_none] at hn
      exact ⟨hnames ▸ List.mem_append_left _ hn.1, hn.2⟩
    have hkept : name ∉ deleted as := by
      intro hn
      obtain ⟨a, ha, haname⟩ := List.mem_map.1 hn
      have hbefore : name ∈ as.map (·.name) := List.mem_map.2 ⟨a, (List.mem_filter.1 ha).1, haname⟩
      exact List.disjoint_of_nodup_append hnodup hbefore List.mem_cons_self
    have hfault := h.fault?_eq (deleted as) name hgone hname hkept
    rw [List.nil_append] at hstate
    rw [← hstate, hr] at hfault
    exact Or.inr ⟨⟨name, hname, f, hfault.symm, habort⟩, _, _, f, rfl⟩

/-- Where each entry fails and is skipped, a clearing changes nothing. -/
theorem clearListed_of_skipped {σ : Type} {remove : String → σ → Except Fault σ} {s : σ}
    (h : ∀ name ∈ names, ∃ f, remove (join settings.directory name) s = .error f ∧
      settings.actionFor (.classify f) = .skip) :
    let c := clearListed settings remove (listingOf names) s
    c.result = .ok ⟨0, names.length⟩ ∧ c.state = s := by
  intro c
  obtain ⟨as, left, hitems, hpasses, hends⟩ := clearListed_ends settings remove (listingOf names) s
  obtain ⟨rest, hnames, hleft⟩ := names_of_listed hitems
  have hskips : ∀ a ∈ as, ∃ f, remove (join settings.directory a.name) s = .error f := by
    intro a ha
    obtain ⟨f, hf, -⟩ := h a.name (hnames ▸ List.mem_append_left _ (List.mem_map_of_mem ha))
    exact ⟨f, hf⟩
  obtain ⟨hstate, hfaults⟩ := hpasses.of_errors hskips
  generalize hresult : c.result = r
  rw [hstate, hresult] at hends
  refine ⟨?_, hstate⟩
  cases hends with
  | cleared =>
    obtain rfl : rest = [] := by simpa using hleft.symm
    have hnone : as.countP (·.fault?.isNone) = 0 := by
      refine List.countP_eq_zero.2 fun a ha => ?_
      simpa using Option.isSome_iff_ne_none.1 (hfaults a ha)
    have hsome : as.countP (·.fault?.isSome) = as.length := List.countP_eq_length.2 hfaults
    simp [Report.after, hnames, hnone, hsome]
  | unlisted f rest' =>
    exfalso
    cases rest <;> cases hleft
  | undeleted name f rest' hr habort =>
    exfalso
    cases rest with
    | nil => cases hleft
    | cons n rest =>
      obtain ⟨hn, -⟩ := List.cons.inj hleft
      obtain ⟨f', hf', hskip⟩ := h n (by rw [hnames]; simp)
      rw [Except.ok.inj hn, hf'] at hr
      rw [Except.error.inj hr, habort] at hskip
      cases hskip

/-- After a clearing that no entry has ended, all that is left is skipped by the next one. -/
theorem clearListed_again (h : IsSteady settings fails? d place names result)
    (hno : ¬ Aborts settings names result) :
    let s := d.without place (names.filter fun n => (result n).isNone)
    ∃ left, s.root.find? place = some (.directory left) ∧
      (∀ es, s.list settings.directory = .ok es → es = left) ∧
      ∀ rest : List String, rest.Perm (left.map Prod.fst) →
        let c := clearListed settings (removing fails?) (listingOf rest) s
        c.result = .ok ⟨0, rest.length⟩ ∧ c.state = s := by
  intro s
  obtain ⟨es, hes, hcomplete⟩ := h.complete
  have hleft : s.root.find? place =
      some (.directory (es.filter fun x => decide (x.1 ∉ names.filter fun n => (result n).isNone))) :=
    Entry.find?_without_self hes
  refine ⟨_, hleft, ?_, ?_⟩
  · intro es' hes'
    obtain ⟨p, hp, hfound⟩ := Disk.list_eq_ok_iff.1 hes'
    obtain rfl := Except.ok.inj (h.resolve_eq.symm.trans (Disk.resolve_of_without hp))
    exact Entry.directory.inj (Option.some.inj (hfound.symm.trans hleft))
  · intro rest hperm
    apply clearListed_of_skipped
    intro name hname
    obtain ⟨x, hx, rfl⟩ := List.mem_map.1 (hperm.mem_iff.1 hname)
    obtain ⟨hmem, hkept⟩ := List.mem_filter.1 hx
    have hkept : x.1 ∉ names.filter fun n => (result n).isNone := of_decide_eq_true hkept
    have hlisted : x.1 ∈ names := hcomplete x hmem
    have hgone : ∀ n ∈ names.filter fun n => (result n).isNone, n ∈ names ∧ result n = none := by
      intro n hn
      obtain ⟨hn, hnone⟩ := List.mem_filter.1 hn
      exact ⟨hn, Option.isNone_iff_eq_none.1 hnone⟩
    -- it was listed and is still there, so it has failed
    obtain ⟨f, hf⟩ : ∃ f, result x.1 = some f := by
      apply Option.ne_none_iff_exists'.1
      intro hnone
      exact hkept (List.mem_filter.2 ⟨hlisted, by rw [hnone]; rfl⟩)
    refine ⟨f, fault?_eq_some_iff.1 ((h.fault?_eq _ x.1 hgone hlisted hkept).trans hf), ?_⟩
    cases haction : settings.actionFor (.classify f) with
    | skip => rfl
    | abort => exact absurd ⟨x.1, hlisted, f, hf, haction⟩ hno

/-- The cache is cleared in two orders of one listing, where each entry has a result of its own; an entry may have been
listed and be gone by then.  Both clearings succeed with the same report and leave the same disk, or an entry ends both,
which is so exactly if there is an entry whose failure does that.  After a success a second clearing of all that is
left, listed in any order, skips every entry and changes nothing. -/
theorem clear_order (h : IsSteady settings fails? d place names result) (hperm : names.Perm names') :
    let clearing := fun names d => clearListed settings (removing fails?) (listingOf names) d
    let c := clearing names d
    let c' := clearing names' d
    ((∃ report, c.result = .ok report ∧ c'.result = .ok report ∧ c.state = c'.state) ∨
        IsUndeleted c.result ∧ IsUndeleted c'.result) ∧
      (IsUndeleted c.result ↔ Aborts settings names result) ∧
      ∀ report, c.result = .ok report → ∃ left, c.state.root.find? place = some (.directory left) ∧
        (∀ es, c.state.list settings.directory = .ok es → es = left) ∧
        ∀ rest : List String, rest.Perm (left.map Prod.fst) →
          (clearing rest c.state).result = .ok ⟨0, rest.length⟩ ∧ (clearing rest c.state).state = c.state := by
  intro clearing c c'
  have haborts : Aborts settings names' result ↔ Aborts settings names result := by
    unfold Aborts
    simp only [hperm.mem_iff]
  have hfirst : _ ∨ _ := clearListed_steady h
  have hsecond : _ ∨ _ := clearListed_steady (h.perm hperm)
  rw [haborts] at hsecond
  rcases hfirst with ⟨hno, hresult, hstate⟩ | ⟨hyes, hundeleted⟩
  · obtain ⟨-, hresult', hstate'⟩ := hsecond.resolve_right fun hends => hno hends.1
    have hstate : c.state = d.without place (names.filter fun n => (result n).isNone) := hstate
    have hstate' : c'.state = d.without place (names'.filter fun n => (result n).isNone) := hstate'
    have hnot : ¬ IsUndeleted c.result := by
      rintro ⟨path, kind, f, hf⟩
      cases hresult.symm.trans hf
    refine ⟨Or.inl ⟨_, hresult, ?_, ?_⟩, iff_of_false hnot hno, fun _ _ => ?_⟩
    · rw [hperm.countP_eq, hperm.countP_eq]
      exact hresult'
    · rw [hstate, hstate']
      exact Disk.without_congr (fun n => (hperm.filter _).mem_iff) d place
    · rw [hstate]
      exact clearListed_again h hno
  · obtain ⟨-, hundeleted'⟩ := hsecond.resolve_left fun hpasses => hpasses.1 hyes
    refine ⟨Or.inr ⟨hundeleted, hundeleted'⟩, iff_of_true hundeleted hyes, fun report hreport => ?_⟩
    obtain ⟨path, kind, f, hf⟩ := hundeleted
    cases hf.symm.trans hreport

/-- The settings of a cache where nothing ends a clearing but a file in use. -/
def lenient : CacheSettings := { directory := "images", onPermissionDenied := .skip, onOther := .skip }

/-- A picture is deleted, while a locked one, one that is gone already and a directory are skipped, in either order. -/
theorem clear_order_mixed :
    let d : Disk := ⟨.directory [("images", .directory [("a.png", .file [1] false 0), ("old", .directory []),
      ("b.png", .file [2] false 0)])], []⟩
    let faults := fun path => if path = "images/b.png" then some Fault.denied else none
    let names := ["a.png", "gone.png", "old", "b.png"]
    let names' := ["b.png", "old", "gone.png", "a.png"]
    let clearing := fun names d => clearListed lenient (removing fun path _ => faults path) (listingOf names) d
    (∃ result, IsSteady lenient (fun path _ => faults path) d ["images"] names result) ∧ names.Perm names' ∧
      (clearing names d).result = .ok ⟨1, 3⟩ ∧ (clearing names' d).result = .ok ⟨1, 3⟩ ∧
      (clearing names d).state = (clearing names' d).state ∧
      (clearing ["old", "b.png"] (clearing names d).state).result = .ok ⟨0, 2⟩ := by
  intro d faults names names' clearing
  have hperm : names.Perm names' := by decide
  have hplace : d.resolve true lenient.directory = .ok ["images"] := rfl
  have hsteady : IsSteady lenient (fun path _ => faults path) d ["images"] names _ :=
    isSteady_of_noLinks hplace rfl (by simp [Entry.IsFile, Entry.isDirectory]) (by decide) (by decide) (by decide)
  have hresult : (clearing names d).result = .ok ⟨1, 3⟩ := rfl
  obtain ⟨hboth, -, hagain⟩ := clear_order hsteady hperm
  have hnot : ¬ IsUndeleted (clearing names d).result := by
    rintro ⟨path, kind, f, hf⟩
    cases hresult.symm.trans hf
  obtain ⟨report, hreport, hreport', hstate⟩ := hboth.resolve_right fun h => hnot h.1
  obtain rfl := Except.ok.inj (hresult.symm.trans hreport)
  obtain ⟨left, hleft, -, hskipped⟩ := hagain _ hresult
  have hnames : left.map Prod.fst = ["old", "b.png"] := by
    have hfound : (clearing names d).state.root.find? ["images"] =
        some (.directory [("old", .directory []), ("b.png", .file [2] false 0)]) := rfl
    rw [← Entry.directory.inj (Option.some.inj (hfound.symm.trans hleft))]
    rfl
  exact ⟨⟨_, hsteady⟩, hperm, hresult, hreport', hstate, (hskipped _ (hnames ▸ List.Perm.refl _)).1⟩

end Steady

end AppLauncher.Cache
