import AppLauncher.Proofs.Cache.Attempts

/-!
# How a clearing can fail

A clearing fails only where the cache cannot be listed, or at an entry that cannot be deleted for a reason at which the
settings end it (`error_of_clearListed`).
-/

namespace AppLauncher.Cache

variable {σ : Type} {remove : String → σ → Except Fault σ} {e : LauncherError}

theorem error_of_clearListed {settings : CacheSettings} {listing : Except Fault (List (Except Fault String))} {s : σ}
    (h : (clearListed settings remove listing s).result = .error e) :
    (∃ f, e = .cacheList settings.directory f) ∨
      ∃ path kind f, e = .cacheDelete path kind f ∧ settings.actionFor kind = .abort := by
  obtain ⟨as, left, -, -, hends⟩ := clearListed_ends settings remove listing s
  rw [h] at hends
  cases hends with
  | unlisted f rest => exact Or.inl ⟨f, rfl⟩
  | undeleted name f rest hr habort => exact Or.inr ⟨_, _, f, rfl, habort⟩

/-- What a cleanup fails with: the cache cannot be listed, an entry cannot be deleted for a reason at which the settings
end the clearing, or the task that clears is lost. -/
inductive Failure (settings : CacheSettings) : LauncherError → Prop
  | unlisted (f : Fault) : Failure settings (.cacheList settings.directory f)
  | undeleted (path : String) (kind : DeleteFailure) (f : Fault) (h : settings.actionFor kind = .abort) :
      Failure settings (.cacheDelete path kind f)
  | lost (reason : String) : Failure settings (.taskFailed reason)

theorem failure_of_clearListed {settings : CacheSettings} {listing : Except Fault (List (Except Fault String))}
    {s : σ} (h : (clearListed settings remove listing s).result = .error e) : Failure settings e := by
  rcases error_of_clearListed h with ⟨f, rfl⟩ | ⟨path, kind, f, rfl, ha⟩
  · exact .unlisted f
  · exact .undeleted path kind f ha

/-- A cleanup that fails ends the launcher. -/
theorem Failure.isFatal {settings : CacheSettings} (h : Failure settings e) : e.isFatal = true := by
  cases h <;> rfl

end AppLauncher.Cache
