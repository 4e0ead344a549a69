import AppLauncher.Cache.Clear
import AppLauncher.Proofs.Storage.Removal
import Mathlib.Data.List.Nodup

/-!
# What a clearing deletes

A clearing tries to delete the entries of a listing one after the other.  It goes on after a deletion that succeeds or
fails for a reason that is skipped (`Passes`), and it ends at the end of the listing, at a fault of the listing, or at
a deletion that fails for any other reason (`Ends`).  On a disk it takes the entries that it has deleted out of the
cache's directory, none of which is a directory, and leaves all else as it was (`clear_exact`).  The launcher's own
clearing is of this kind (`clear_eq`, `isListing_list`).
-/

namespace AppLauncher.Cache

open AppLauncher.Storage

/-- An attempt to delete an entry, and the fault if it failed. -/
structure Attempt where
  name : String
  fault? : Option Fault
  deriving DecidableEq

/-- The entries that were tried, as a listing gives them. -/
def listed (as : List Attempt) : List (Except Fault String) := as.map fun a => .ok a.name

/-- The names of the entries that were deleted. -/
def deleted (as : List Attempt) : List String := (as.filter (·.fault?.isNone)).map (·.name)

/-- A report after more attempts. -/
def Report.after (r : Report) (as : List Attempt) : Report :=
  ⟨r.removed + as.countP (·.fault?.isNone), r.skipped + as.countP (·.fault?.isSome)⟩

section Sweep

variable {σ : Type} {settings : CacheSettings} {remove : String → σ → Except Fault σ} {s t : σ}
  {as : List Attempt} {left : List (Except Fault String)} {report : Report} {log : List Log.Line}
  {result : Except LauncherError Report}

/-- Attempts, one after the other, after which a clearing goes on: an entry is deleted, or it is not for a reason that
is skipped, and then nothing has changed. -/
inductive Passes (settings : CacheSettings) (remove : String → σ → Except Fault σ) : σ → List Attempt → σ → Prop
  | nil (s : σ) : Passes settings remove s [] s
  | deleted {s t u : σ} {name : String} {as : List Attempt} (h : remove (join settings.directory name) s = .ok t)
      (has : Passes settings remove t as u) : Passes settings remove s (⟨name, none⟩ :: as) u
  | skipped {s u : σ} {name : String} {f : Fault} {as : List Attempt}
      (h : remove (join settings.directory name) s = .error f)
      (hskip : settings.actionFor (.classify f) = .skip) (has : Passes settings remove s as u) :
      Passes settings remove s (⟨name, some f⟩ :: as) u

/-- How a clearing ends with what is left of its listing: nothing is left, the listing fails, or an entry cannot be
deleted for a reason that ends it. -/
inductive Ends (settings : CacheSettings) (remove : String → σ → Except Fault σ) (s : σ) (report : Report) :
    List (Except Fault String) → Except LauncherError Report → Prop
  | cleared : Ends settings remove s report [] (.ok report)
  | unlisted (f : Fault) (rest : List (Except Fault String)) :
      Ends settings remove s report (.error f :: rest) (.error (.cacheList settings.directory f))
  | undeleted (name : String) (f : Fault) (rest : List (Except Fault String))
      (h : remove (join settings.directory name) s = .error f)
      (habort : settings.actionFor (.classify f) = .abort) :
      Ends settings remove s report (.ok name :: rest)
        (.error (.cacheDelete (join settings.directory name) (.classify f) f))

/-! ### One clearing -/

theorem Report.after_deleted (r : Report) (name : String) (as : List Attempt) :
    r.after (⟨name, none⟩ :: as) = { r with removed := r.removed + 1 }.after as := by
  simp only [Report.after, List.countP_cons, Option.isNone_none, Option.isSome_none, if_true, Bool.false_eq_true,
    if_false, Report.mk.injEq, Nat.add_zero, and_true]
  omega

theorem Report.after_skipped (r : Report) (name : String) (f : Fault) (as : List Attempt) :
    r.after (⟨name, some f⟩ :: as) = { r with skipped := r.skipped + 1 }.after as := by
  simp only [Report.after, List.countP_cons, Option.isNone_some, Option.isSome_some, if_true, Bool.false_eq_true,
    if_false, Report.mk.injEq, Nat.add_zero, true_and]
  omega

/-- A clearing passes the first entries of its listing and ends with what is left. -/
theorem sweep_ends (settings : CacheSettings) (remove : String → σ → Except Fault σ)
    (items : List (Except Fault String)) (s : σ) (report : Report) (log : List Log.Line) :
    let c := sweep settings.directory settings.actionFor remove items s report log
    ∃ as left, items = listed as ++ left ∧ Passes settings remove s as c.state ∧
      Ends settings remove c.state (report.after as) left c.result := by
  -- what was tried is a first part of the items, so the induction is on these
  induction items generalizing s report log with
  | nil => exact ⟨[], [], rfl, .nil s, .cleared⟩
  | cons item rest ih =>
    cases item with
    | error f => exact ⟨[], .error f :: rest, rfl, .nil s, .unlisted f rest⟩
    | ok name =>
      rw [sweep]
      cases hr : remove (join settings.directory name) s with
      | ok t =>
        obtain ⟨as, left, hitems, hpasses, hends⟩ := ih t { report with removed := report.removed + 1 }
          (log ++ [Log.debug ("Deleted cached file " ++ join settings.directory name)])
        refine ⟨⟨name, none⟩ :: as, left, ?_, .deleted hr hpasses, ?_⟩
        · rw [hitems]
          rfl
        · rw [Report.after_deleted]
          exact hends
      | error f =>
        cases ha : settings.actionFor (.classify f) with
        | skip =>
          obtain ⟨as, left, hitems, hpasses, hends⟩ := ih s { report with skipped := report.skipped + 1 }
            (log ++ [Log.warn ("Skipping cached file " ++ join settings.directory name ++ " (" ++
              (DeleteFailure.classify f).label ++ "): " ++ f.text)])
          simp only [ha]
          refine ⟨⟨name, some f⟩ :: as, left, ?_, .skipped hr ha hpasses, ?_⟩
          · rw [hitems]
            rfl
          · rw [Report.after_skipped]
            exact hends
        | abort =>
          simp only [ha]
          exact ⟨[], .ok name :: rest, rfl, .nil s, .undeleted name f rest hr ha⟩

/-- Entries that are passed are passed whatever comes after them. -/
theorem sweep_of_passes (h : Passes settings remove s as t) (left : List (Except Fault String)) (report : Report)
    (log : List Log.Line) : ∃ log',
      sweep settings.directory settings.actionFor remove (listed as ++ left) s report log =
        sweep settings.directory settings.actionFor remove left t (report.after as) log' := by
  induction h generalizing report log with
  | nil s => exact ⟨log, rfl⟩
  | @deleted s t u name as hr has ih =>
    obtain ⟨log', hlog'⟩ := ih { report with removed := report.removed + 1 }
      (log ++ [Log.debug ("Deleted cached file " ++ join settings.directory name)])
    refine ⟨log', ?_⟩
    rw [Report.after_deleted, ← hlog']
    simp only [listed, List.map_cons, List.cons_append, sweep, hr]
  | @skipped s u name f as hr hskip has ih =>
    obtain ⟨log', hlog'⟩ := ih { report with skipped := report.skipped + 1 }
      (log ++ [Log.warn ("Skipping cached file " ++ join settings.directory name ++ " (" ++
        (DeleteFailure.classify f).label ++ "): " ++ f.text)])
    refine ⟨log', ?_⟩
    rw [Report.after_skipped, ← hlog']
    simp only [listed, List.map_cons, List.cons_append, sweep, hr, hskip]

/-- What reading a directory gives, with a fault at its beginning as the first of it. -/
def readings : Except Fault (List (Except Fault String)) → List (Except Fault String)
  | .error f => [.error f]
  | .ok items => items

private theorem clearListed_eq (settings : CacheSettings) (remove : String → σ → Except Fault σ)
    (listing : Except Fault (List (Except Fault String))) (s : σ) :
    let c := sweep settings.directory settings.actionFor remove (readings listing) s {} []
    (clearListed settings remove listing s).state = c.state ∧
      (clearListed settings remove listing s).result = c.result := by
  cases listing with
  | error f => exact ⟨rfl, rfl⟩
  | ok items =>
    unfold clearListed readings
    dsimp only
    split <;> exact ⟨rfl, rfl⟩

theorem clearListed_ends (settings : CacheSettings) (remove : String → σ → Except Fault σ)
    (listing : Except Fault (List (Except Fault String))) (s : σ) :
    let c := clearListed settings remove listing s
    ∃ as left, readings listing = listed as ++ left ∧ Passes settings remove s as c.state ∧
      Ends settings remove c.state (Report.after {} as) left c.result := by
  obtain ⟨hstate, hresult⟩ := clearListed_eq settings remove listing s
  dsimp only
  rw [hstate, hresult]
  exact sweep_ends settings remove (readings listing) s {} []

theorem clearListed_of_passes {listing : Except Fault (List (Except Fault String))} {f : Fault}
    {rest : List (Except Fault String)} (hpasses : Passes settings remove s as t)
    (hlisting : readings listing = listed as ++ .error f :: rest) :
    (clearListed settings remove listing s).result = .error (.cacheList settings.directory f) := by
  obtain ⟨log', hlog'⟩ := sweep_of_passes hpasses (.error f :: rest) {} []
  rw [(clearListed_eq settings remove listing s).2, hlisting, hlog']
  rfl

end Sweep

/-! ### On a disk -/

section Disk

variable {settings : CacheSettings} {d s t : Disk} {place gone : List String} {es : List (String × Entry)}
  {as : List Attempt} {fails? : String → Disk → Option Fault}

/-- Deleting on a disk where deletions may fail for other reasons too. -/
def removing (fails? : String → Disk → Option Fault) (path : String) (d : Disk) : Except Fault Disk :=
  match fails? path d with
  | some f => .error f
  | none => d.remove path

theorem remove_of_removing {path : String} (h : removing fails? path s = .ok t) : s.remove path = .ok t := by
  unfold removing at h
  cases hf : fails? path s with
  | none =>
    rw [hf] at h
    exact h
  | some f =>
    rw [hf] at h
    cases h

/-- What reading a directory can give: a fault at once, or the names of its entries in any order, where the reading may
fail at any point; all of its entries if it does not fail. -/
def IsListing (d : Disk) (directory : String) (listing : Except Fault (List (Except Fault String))) : Prop :=
  ∀ items, listing = .ok items → ∃ es, d.list directory = .ok es ∧ (∀ x ∈ es, IsEntryName x.1) ∧
    (∀ name, .ok name ∈ items → name ∈ es.map Prod.fst) ∧
    ((∀ f, .error f ∉ items) → ∀ x ∈ es, .ok x.1 ∈ items)

/-- What was deleted is taken out of the directory, in which it was an entry other than a directory. -/
theorem Passes.state_eq (hplace : d.resolve true settings.directory = .ok place)
    (hes : d.root.find? place = some (.directory es)) (h : Passes settings (removing fails?) s as t)
    (hnames : ∀ a ∈ as, IsEntryName a.name) (hs : s = d.without place gone) :
    t = d.without place (gone ++ Cache.deleted as) ∧
      ∀ name ∈ Cache.deleted as, ∃ e, es.lookup name = some e ∧ e.isDirectory = false := by
  induction h generalizing gone with
  | nil s =>
    subst hs
    simp [Cache.deleted]
  | @deleted s t u name as hr has ih =>
    subst hs
    have hname : IsEntryName name := hnames _ List.mem_cons_self
    obtain ⟨ht, -, e, he, hnot⟩ := Disk.remove_without_eq_ok hplace hes hname (remove_of_removing hr)
    obtain ⟨hu, hall⟩ := ih (fun a ha => hnames a (List.mem_cons_of_mem _ ha)) ht
    have hdeleted : Cache.deleted (⟨name, none⟩ :: as) = name :: Cache.deleted as := by simp [Cache.deleted]
    rw [hdeleted]
    constructor
    · rw [hu, List.append_assoc]
      rfl
    · intro n hn
      rcases List.mem_cons.1 hn with rfl | hn
      · exact ⟨e, he, hnot⟩
      · exact hall n hn
  | @skipped s u name f as hr hskip has ih =>
    have hdeleted : Cache.deleted (⟨name, some f⟩ :: as) = Cache.deleted as := by simp [Cache.deleted]
    rw [hdeleted]
    exact ih (fun a ha => hnames a (List.mem_cons_of_mem _ ha)) hs

theorem clear_eq (settings : CacheSettings) (d : Disk) :
    clear settings d = clearListed settings (removing fun _ _ => none)
      ((d.list settings.directory).map fun es => es.map fun e => .ok e.1) d := rfl

theorem isListing_list {directory : String}
    (hnames : ∀ es, d.list directory = .ok es → ∀ x ∈ es, IsEntryName x.1) :
    IsListing d directory ((d.list directory).map fun es => es.map fun e => .ok e.1) := by
  intro items hitems
  cases hes : d.list directory with
  | error f =>
    rw [hes] at hitems
    cases hitems
  | ok es =>
    rw [hes] at hitems
    obtain rfl := Except.ok.inj hitems
    refine ⟨es, rfl, hnames es hes, fun name hname => ?_, fun _ x hx => List.mem_map.2 ⟨x, hx, rfl⟩⟩
    obtain ⟨x, hx, hxname⟩ := List.mem_map.1 hname
    exact List.mem_map.2 ⟨x, hx, Except.ok.inj hxname⟩

private theorem mem_listed {name : String} : .ok name ∈ listed as ↔ ∃ a ∈ as, a.name = name := by
  simp [listed]

private theorem notMem_listed (f : Fault) (as : List Attempt) : .error f ∉ listed as := by
  simp [listed]

private theorem nodup_of_listed (h : (listed as).Nodup) : (as.map (·.name)).Nodup := by
  have hmap : listed as = (as.map (·.name)).map (Except.ok : String → Except Fault String) := by simp [listed]
  rw [hmap] at h
  exact h.of_map _

private theorem mem_deleted {a : Attempt} (ha : a ∈ as) (hf : a.fault? = none) : a.name ∈ Cache.deleted as :=
  List.mem_map.2 ⟨a, List.mem_filter.2 ⟨ha, by rw [hf]; rfl⟩, rfl⟩

/-- A listing that was tried to its end without a fault had all entries. -/
theorem tried_of_listing {listing : Except Fault (List (Except Fault String))} {directory : String}
    (hlisting : IsListing d directory listing) (hitems : readings listing = listed as)
    (hes : d.list directory = .ok es) : ∀ x ∈ es, ∃ a ∈ as, a.name = x.1 := by
  intro x hx
  cases listing with
  | error f =>
    exact absurd (hitems ▸ List.mem_singleton_self (Except.error f : Except Fault String)) (notMem_listed f as)
  | ok items =>
    obtain ⟨es', hes', -, -, hcomplete⟩ := hlisting items rfl
    obtain rfl : es = es' := Except.ok.inj (hes.symm.trans hes')
    have hlisted : items = listed as := hitems
    have hmem := hcomplete (fun f hf => notMem_listed f as (hlisted ▸ hf)) x hx
    exact mem_listed.1 (hlisted ▸ hmem)

/-- What a clearing has passed has taken the deleted entries out of the cache's directory. -/
theorem Passes.exists_place {listing : Except Fault (List (Except Fault String))}
    {left : List (Except Fault String)} (hpasses : Passes settings (removing fails?) d as t)
    (hlisting : IsListing d settings.directory listing) (hitems : readings listing = listed as ++ left) :
    ∃ place, t = d.without place (Cache.deleted as) ∧
      ∀ name ∈ Cache.deleted as, ∃ es e, d.resolve true settings.directory = .ok place ∧
        d.root.find? place = some (.directory es) ∧ es.lookup name = some e ∧ e.isDirectory = false := by
  cases listing with
  | error f =>
    -- the listing has failed at once, so nothing was tried
    obtain rfl : as = [] := by
      cases as with
      | nil => rfl
      | cons a as => cases hitems
    cases hpasses
    exact ⟨[], (Disk.without_nil d []).symm, by simp [Cache.deleted]⟩
  | ok items =>
    have hlisted : items = listed as ++ left := hitems
    obtain ⟨es, hes, hnames, hsub, -⟩ := hlisting items rfl
    obtain ⟨place, hplace, hfound⟩ := Disk.list_eq_ok_iff.1 hes
    have hentry : ∀ a ∈ as, IsEntryName a.name := by
      intro a ha
      have hmem : .ok a.name ∈ items := hlisted ▸ List.mem_append_left _ (mem_listed.2 ⟨a, ha, rfl⟩)
      obtain ⟨x, hx, hxname⟩ := List.mem_map.1 (hsub a.name hmem)
      exact hxname ▸ hnames x hx
    obtain ⟨hstate, hdeleted⟩ := hpasses.state_eq hplace hfound hentry (Disk.without_nil d place).symm
    refine ⟨place, hstate, fun name hname => ?_⟩
    obtain ⟨e, he, hnot⟩ := hdeleted name hname
    exact ⟨es, e, hplace, hfound, he, hnot⟩

/-- The cache is cleared on any disk, by any settings, with any listing of the cache's directory and whatever deletions
fail.  The entries are tried in the order of the listing up to the point where the clearing ends, none twice if none is
listed twice.  If the clearing succeeds, all entries were tried, its report counts those that were deleted and those
that were skipped, and what is still there was skipped.  If an entry is reported, it is the first that could not be
deleted for a reason that ends the clearing, and what comes after it was not tried.  The listing is reported exactly if
it fails before that.  The disk has lost what was deleted, entries of the cache's directory itself that are no
directories, and nothing else. -/
theorem clear_exact (settings : CacheSettings) (d : Disk) (fails? : String → Disk → Option Fault)
    (listing : Except Fault (List (Except Fault String))) (hlisting : IsListing d settings.directory listing) :
    let remove := removing fails?
    let c := clearListed settings remove listing d
    ∃ as left, readings listing = listed as ++ left ∧ ((readings listing).Nodup → (as.map (·.name)).Nodup) ∧
      Passes settings remove d as c.state ∧
      (∀ report, c.result = .ok report →
        left = [] ∧ report.removed = as.countP (·.fault?.isNone) ∧ report.skipped = as.countP (·.fault?.isSome) ∧
          ∀ es, d.list settings.directory = .ok es → ∀ x ∈ es, ∃ a ∈ as, a.name = x.1) ∧
      (∀ path kind f, c.result = .error (.cacheDelete path kind f) →
        ∃ name rest, left = .ok name :: rest ∧ path = join settings.directory name ∧
          remove path c.state = .error f ∧ kind = .classify f ∧ settings.actionFor kind = .abort) ∧
      (∀ f, c.result = .error (.cacheList settings.directory f) ↔
        ∃ bs t rest, readings listing = listed bs ++ .error f :: rest ∧ Passes settings remove d bs t) ∧
      (∀ e, c.result = .error e →
        (∃ path kind f, e = .cacheDelete path kind f) ∨ ∃ f, e = .cacheList settings.directory f) ∧
      ∃ place, c.state = d.without place (deleted as) ∧
        (∀ name ∈ deleted as, ∃ es e, d.resolve true settings.directory = .ok place ∧
          d.root.find? place = some (.directory es) ∧ es.lookup name = some e ∧ e.isDirectory = false) ∧
        (∀ q e, d.root.find? q = some e → (∀ name ∈ deleted as, q ≠ place ++ [name]) →
          ∃ e', c.state.root.find? q = some e' ∧ e.Keeps e') ∧
        ∀ a ∈ as, (c.state.root.find? (place ++ [a.name])).isSome → a.fault?.isSome := by
  intro remove c
  obtain ⟨as, left, hitems, hpasses, hends⟩ := clearListed_ends settings remove listing d
  refine ⟨as, left, hitems, ?_, hpasses, ?_, ?_, ?_, ?_, ?_⟩
  · intro hnodup
    rw [hitems] at hnodup
    exact nodup_of_listed hnodup.of_append_left
  · intro report hresult
    rw [hresult] at hends
    cases hends with
    | cleared =>
      rw [List.append_nil] at hitems
      exact ⟨rfl, Nat.zero_add _, Nat.zero_add _, fun es hes => tried_of_listing hlisting hitems hes⟩
  · intro path kind f hresult
    rw [hresult] at hends
    cases hends with
    | undeleted name f rest h habort => exact ⟨name, rest, rfl, rfl, h, rfl, habort⟩
  · intro f
    constructor
    · intro hresult
      rw [hresult] at hends
      cases hends with
      | unlisted _ rest => exact ⟨as, c.state, rest, hitems, hpasses⟩
    · rintro ⟨bs, t, rest, hbs, hpassed⟩
      exact clearListed_of_passes hpassed hbs
  · intro e hresult
    rw [hresult] at hends
    cases hends with
    | unlisted f rest => exact Or.inr ⟨f, rfl⟩
    | undeleted name f rest h habort => exact Or.inl ⟨_, _, f, rfl⟩
  · obtain ⟨place, hstate, hdeleted⟩ := hpasses.exists_place hlisting hitems
    refine ⟨place, hstate, hdeleted, ?_, ?_⟩
    · intro q e he hq
      rw [hstate]
      apply Entry.find?_without_of_ne ?_ he hq
      intro name hname x hx
      obtain ⟨es, e', -, hfound, hlookup, hnot⟩ := hdeleted name hname
      rw [Entry.find?_child hfound, hlookup] at hx
      exact Option.some.inj hx ▸ hnot
    · intro a ha hpresent
      by_contra hnot
      have hname : a.name ∈ deleted as := mem_deleted ha (by simpa using hnot)
      have hnone : c.state.root.find? (place ++ [a.name]) = none := by
        rw [hstate]
        exact Entry.find?_without_gone hname []
      rw [hnone] at hpresent
      cases hpresent

/-- A picture is deleted, a directory is skipped, and a locked picture ends the clearing before the last one. -/
theorem clear_exact_locked :
    let d : Disk := ⟨.directory [("images", .directory [("a.png", .file [1] false 0), ("old", .directory []),
      ("b.png", .file [2] false 0), ("c.png", .file [3] false 0)])], []⟩
    let listing : Except Fault (List (Except Fault String)) := .ok [.ok "a.png", .ok "old", .ok "b.png", .ok "c.png"]
    let fails? := fun path (_ : Disk) => if path = "images/b.png" then some Fault.denied else none
    let c := clearListed { directory := "images", onOther := .skip } (removing fails?) listing d
    IsListing d "images" listing ∧ c.result = .error (.cacheDelete "images/b.png" .permissionDenied Fault.denied) ∧
      (∃ name, "images/b.png" = join "images" name ∧ removing fails? "images/b.png" c.state = .error Fault.denied) ∧
      c.state.root.find? ["images", "a.png"] = none ∧
      c.state.root.find? ["images", "c.png"] = some (.file [3] false 0) := by
  intro d listing fails? c
  have hlisting : IsListing d "images" listing := by
    intro items hitems
    obtain rfl := Except.ok.inj hitems
    exact ⟨_, rfl, by decide, by simp, by simp⟩
  have hresult : c.result = .error (.cacheDelete "images/b.png" .permissionDenied Fault.denied) := rfl
  obtain ⟨as, left, -, -, -, -, hundeleted, -⟩ :=
    clear_exact { directory := "images", onOther := .skip } d fails? listing hlisting
  obtain ⟨name, -, -, hpath, hfails, -⟩ := hundeleted _ _ _ hresult
  exact ⟨hlisting, hresult, ⟨name, hpath, hfails⟩, rfl, rfl⟩

end Disk

end AppLauncher.Cache
