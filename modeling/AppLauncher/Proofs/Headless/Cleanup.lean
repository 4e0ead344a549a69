import AppLauncher.Proofs.Headless.Outcome

/-!
# What becomes of the cleanup

A run that has started the server returns only when the cleanup is over, and returns its failure.  A run that could not
start the server returns at once: it never asks what the cleanup has come to, which may be anything
(`runs_unspawned`).  So it is the server on which it depends whether the cleanup is waited for
(`cleanup_settled_or_abandoned`).
-/

namespace AppLauncher.Headless

open AppLauncher.Launcher AppLauncher.Output AppLauncher.Server AppLauncher.Storage

/-- There is a cleanup, and nobody has asked what it has come to. -/
def Abandons (s : State) : Prop := s.unclaimed = true ∧ s.cleanup.isSome = true

namespace Course

variable {sinks : Sinks} {settings : Config} {x y : Course} {result : Except LauncherError Unit}

theorem abandons_beginCleanup {s : State} (hclear : s.config.cache.clearOnStart = true) :
    Abandons s.beginCleanup := by
  unfold State.beginCleanup
  rw [if_pos hclear]
  exact ⟨rfl, rfl⟩

/-- Until the server is started nobody asks for the cleanup, and nobody does so if it cannot be started. -/
def Unasked (x : Course) : Prop := (x.phase = .cleaning ∨ ∃ e, x.spawned? = some (.error e)) → Abandons x.launcher

theorem unasked_of_spawned (h : x.phase ≠ .cleaning) (hspawned : x.spawned? = some (.ok ())) : x.Unasked := by
  rintro (hphase | ⟨e, he⟩)
  · exact absurd hphase h
  · cases hspawned.symm.trans he

theorem Unasked.step (h : x.Unasked) (hknown : x.Known settings) (hclear : settings.cache.clearOnStart = true)
    (hxy : Step sinks x y) : y.Unasked := by
  have hspawned := hknown.phase
  cases hxy with
  | cleans s => exact fun _ => abandons_beginCleanup (hknown.config ▸ hclear)
  | refuses s t w e hb =>
    obtain ⟨rfl, -⟩ := State.error_of_beginServer hb
    exact fun _ => h (Or.inl rfl)
  | spawns s t w hb => exact unasked_of_spawned (by simp) rfl
  | goesOn s t c c' o hn => exact unasked_of_spawned (by simp) hspawned.1
  | fails s r e o hr => exact unasked_of_spawned (by simp) hspawned.1
  | waits s r o hr => exact unasked_of_spawned (by simp) hspawned.1
  | closes s r o => exact unasked_of_spawned (by simp) hspawned.1
  | interrupts s o => exact unasked_of_spawned (by simp) hspawned.1
  | stops s outcome o => exact unasked_of_spawned (by simp) hspawned.1
  | beside s t p o rs hst hp =>
    intro hbefore
    obtain ⟨hunclaimed, hcleanup⟩ := h hbefore
    exact ⟨hst.background.unclaimed_eq.trans hunclaimed, hst.background.carries.hasCleanup.trans hcleanup⟩

theorem unasked_runs (hclear : settings.cache.clearOnStart = true) (hx : (new settings).Runs sinks x) :
    x.Unasked := by
  induction hx with
  | refl =>
    rintro (hphase | ⟨e, he⟩)
    · cases hphase
    · cases he
  | tail hruns hlast ih => exact ih.step ((known_new settings).runs hruns) hclear hlast

/-! ### Runs that cannot start the server -/

/-- A cleanup that has begun, wherever it has got to. -/
def Reaches (settings : CacheSettings) (stage : Stage) : Prop := stage = .pending ∨ stage.Possible settings

/-- Whatever the settings are, a server that cannot be started ends the run with the cleanup anywhere, and nothing but
its beginning is in the log. -/
theorem runs_unspawned (sinks : Sinks) (settings : Config) (hclear : settings.cache.clearOnStart = true) {stage : Stage}
    (hstage : Reaches settings.cache stage) (f : Fault) :
    ∃ x, (new settings).Runs sinks x ∧ x.phase = .returned (.error (.spawn settings.server.interpreter f)) ∧
      x.launcher.cleanup = some ⟨1, stage⟩ ∧
      x.launcher.log = [Log.info ("Clearing cache directory " ++ settings.cache.directory)] := by
  let w : World := ⟨⟨.directory [], []⟩, fun _ _ _ => .error f⟩
  let s : State := { (new settings).launcher with
    tasks := 1
    cleanup := some ⟨1, .pending⟩
    unclaimed := true
    log := [Log.info ("Clearing cache directory " ++ settings.cache.directory)] }
  have hbegun : (new settings).launcher.beginCleanup = s := by
    unfold State.beginCleanup
    rw [if_pos (show (new settings).launcher.config.cache.clearOnStart = true from hclear)]
    rfl
  have hcleaning : (new settings).Runs sinks ⟨s, .cleaning, none⟩ := hbegun ▸ .single (.cleans _)
  rcases hstage with rfl | hpossible
  · exact ⟨_, hcleaning.tail (.refuses _ _ w _ rfl), rfl, rfl, rfl⟩
  · have hover := hcleaning.tail (.beside _ _ _ _ _ (.cleanup _ stage rfl rfl hpossible) (by simp))
    exact ⟨_, hover.tail (.refuses _ _ w _ rfl), rfl, rfl, rfl⟩

/-! ### How the cleanup is left -/

/-- A run with a cleanup returns in one of two ways.  Either the server was started; then the cleanup is over, and the
run returns its failure if it has failed.  Or the server could not be started; then the run returns that, and nobody
has asked what the cleanup has come to. -/
theorem cleanup_settled_or_abandoned (sinks : Sinks) (settings : Config) (hclear : settings.cache.clearOnStart = true)
    (hx : (new settings).Runs sinks x) (hresult : x.phase = .returned result) :
    (x.spawned? = some (.ok ()) ∧
      ∃ c, x.launcher.cleaned? = some c ∧ ∀ e, c = .error e → result = .error e) ∨
    ∃ e, x.spawned? = some (.error e) ∧ result = .error e ∧ Abandons x.launcher := by
  have hunasked := unasked_runs hclear hx
  have hended := ((known_new settings).runs hx).phase
  rw [hresult] at hended
  obtain ⟨s, p, o⟩ := x
  cases hended with
  | unspawned e hserver => exact Or.inr ⟨e, rfl, rfl, hunasked (Or.inr ⟨e, rfl⟩)⟩
  | uncleaned e hclean hserver =>
    refine Or.inl ⟨rfl, .error e, hclean, fun e' he' => ?_⟩
    rw [Except.error.inj he']
  | done hclean hserver =>
    obtain ⟨report, hreport⟩ := hclean
    refine Or.inl ⟨rfl, .ok report, hreport, fun e he => ?_⟩
    cases he

/-- Settings with a cache and a server that are not there. -/
def nowhere : Config := { cache := { directory := "images" }, server := { interpreter := "./none" } }

theorem reaches_nowhere : Reaches nowhere.cache (.finished (.error (.cacheList "images" .missing))) :=
  Or.inr (.cleared (fun _ s => .ok s) (.error .missing) ())

theorem cleanup_settled_or_abandoned_nowhere : ∃ x, (new nowhere).Runs Running.captured x ∧
    x.phase = .returned (.error (.spawn "./none" .missing)) ∧ Abandons x.launcher := by
  obtain ⟨x, hruns, hphase, hcleanup, -⟩ := runs_unspawned Running.captured nowhere rfl reaches_nowhere .missing
  refine ⟨x, hruns, hphase, ?_⟩
  rcases cleanup_settled_or_abandoned Running.captured nowhere rfl hruns hphase with
    ⟨-, c, hcleaned, hreturned⟩ | ⟨-, -, -, habandons⟩
  · -- the run would have returned the failure of the cleanup
    have hfailed : x.launcher.cleaned? = some (.error (.cacheList "images" .missing)) := by
      unfold State.cleaned?
      rw [hcleanup]
      rfl
    cases hreturned _ (Option.some.inj (hcleaned.symm.trans hfailed))
  · exact habandons

/-- The cleanup has failed, and the run says nothing of it; or the run returns before the cleanup is over. -/
theorem cleanup_failure_lost :
    (∃ x, (new nowhere).Runs Running.captured x ∧ x.phase = .returned (.error (.spawn "./none" .missing)) ∧
      x.launcher.cleaned? = some (.error (.cacheList "images" .missing)) ∧
      cleanupFailure (.cacheList "images" .missing) ∉ x.launcher.log) ∧
    ∃ x, (new nowhere).Runs Running.captured x ∧ x.phase = .returned (.error (.spawn "./none" .missing)) ∧
      x.launcher.cleaned? = none := by
  constructor
  · obtain ⟨x, hruns, hphase, hcleanup, hlog⟩ := runs_unspawned Running.captured nowhere rfl reaches_nowhere .missing
    refine ⟨x, hruns, hphase, ?_, ?_⟩
    · unfold State.cleaned?
      rw [hcleanup]
      rfl
    · rw [hlog]
      simp [cleanupFailure, Log.error, Log.info]
  · obtain ⟨x, hruns, hphase, hcleanup, -⟩ := runs_unspawned Running.captured nowhere rfl (Or.inl rfl) .missing
    refine ⟨x, hruns, hphase, ?_⟩
    unfold State.cleaned?
    rw [hcleanup]
    rfl

end Course

end AppLauncher.Headless
