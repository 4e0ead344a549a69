import AppLauncher.Launcher.Session
import AppLauncher.Proofs.Launcher.Usage

/-!
# A session is one of the runs

A session lets calls and the background go on by one schedule of many.  All that it does in the background can happen
beside calls (`besides_happen`), so a call that it makes is made in one of the runs of a launcher in use
(`runs_run`), and a window that it opens comes to an outcome of the call that opens it (`outcome_openWindow`).
-/

namespace AppLauncher.Launcher.Session

open AppLauncher.Output AppLauncher.Server Relation

variable {s s' : Session}

/-! ### The background -/

/-- A cleanup that runs ends, or nobody can ask for its result. -/
theorem besides_runCleanup (h : s.hasCleanup = true) :
    ∃ rs, Besides Running.captured s.launcher rs s.runCleanup.launcher := by
  let c := Cache.clear s.launcher.config.cache s.world.disk
  have hlog : Besides Running.captured s.launcher [] (s.launcher.say c.log) := .single (.log c.log)
  by_cases ha : 0 < s.abandoned
  · have hrun : s.runCleanup.launcher = s.launcher.say c.log := by simp [runCleanup, ha, c]
    rw [hrun]
    exact ⟨_, hlog⟩
  · have hpending : s.launcher.cleanup.any (·.isPending) = true := by simpa [hasCleanup, ha] using h
    obtain ⟨k, hk, hresult⟩ := (Option.any_eq_true _ _).1 hpending
    have hrun : s.runCleanup.launcher =
        { s.launcher.say c.log with cleanup := some { k with stage := .finished c.result } } := by
      simp [runCleanup, ha, State.say, hk, c]
    rw [hrun]
    exact ⟨_, hlog.tail (.cleanup k _ hk (by simpa [Cleanup.isPending] using hresult) (.cleared _ _ _))⟩

/-- Servers that go on, go on beside calls. -/
theorem besides_advanceServers (s : Session) (time : Nat) :
    ∃ rs, Besides Running.captured s.launcher rs (s.advanceServers time).launcher := by
  let later : State := { s.launcher with clock := max time s.launcher.clock }
  let former := s.former.map (·.advance (max time s.launcher.clock))
  have htime : Besides Running.captured s.launcher [] later :=
    .single (.time _ s.launcher.accepting (Nat.le_max_right _ _))
  cases hr : s.launcher.server with
  | none =>
    have hend : (s.advanceServers time).launcher = later.say (former.flatMap (·.2)) := by
      simp [advanceServers, hr, State.say, later, former]
    rw [hend]
    exact ⟨_, htime.tail (.log _)⟩
  | some r =>
    let advanced := r.advance (max time s.launcher.clock)
    obtain ⟨hs, hks, hadvanced⟩ := r.proceeds_advance (max time s.launcher.clock)
    have hserver : Beside Running.captured later _ { later with server := some advanced.1 } :=
      .server r _ hs hr hks hadvanced
    have hend : (s.advanceServers time).launcher =
        State.say { later with server := some advanced.1 } (former.flatMap (·.2) ++ advanced.2) := by
      simp [advanceServers, hr, State.say, later, former, advanced]
    rw [hend]
    exact ⟨_, (htime.tail hserver).tail (.log _)⟩

theorem besides_happen (s : Session) (time : Nat) :
    ∃ rs, Besides Running.captured s.launcher rs (s.happen time).launcher := by
  rw [happen]
  split
  · exact besides_runCleanup (by assumption)
  · exact s.besides_advanceServers time

/-! ### Calls -/

/-- What the steps of a call and the background preserve is preserved by the loop of a session. -/
theorem callLoop_preserves {P : Session → Call → Prop}
    (hnext : ∀ s c l c', P s c → (l, c') ∈ c.next s.launcher → P { s with launcher := l } c')
    (hhappen : ∀ s c t, P s c → P (s.happen t) c) (hold : Session → Bool) (n : Nat) {s : Session} {c : Call}
    (h : P s c) : P (callLoop hold n s c).1 (callLoop hold n s c).2 := by
  induction n generalizing s c with
  | zero => exact h
  | succ n ih =>
    rw [callLoop]
    split
    · exact h
    · cases hsteps : c.next s.launcher with
      | cons p rest => exact ih (hnext s c p.1 p.2 h (hsteps ▸ List.mem_cons_self))
      | nil =>
        -- the call waits, so the next thing happens beside it
        dsimp only
        split
        · exact h
        · split
          · exact ih (hhappen s c _ h)
          · exact h

/-- A call that a session makes is made in one of the runs of the launcher in use. -/
theorem runs_run (W : Window.Host → Prop) {c : Call} (hfresh : c.Fresh) {x : Usage} (hx : x.launcher = s.launcher)
    (hc : x.calls = []) : ∃ y asks, x.Runs Running.captured W y ∧ y.launcher = (s.run c).1.launcher ∧
      y.calls = [⟨(s.run c).2, asks⟩] := by
  refine callLoop_preserves (P := fun s c => ∃ y asks, x.Runs Running.captured W y ∧ y.launcher = s.launcher ∧
    y.calls = [⟨c, asks⟩]) ?_ ?_ _ _ ?_
  · rintro s c l c' ⟨y, asks, hruns, hy, hcalls⟩ hmem
    refine ⟨_, asks || decide (l.stops ≠ y.launcher.stops), hruns.tail (.goOn 0 ⟨c, asks⟩ l c' ?_ (hy ▸ hmem)), rfl, ?_⟩
    · rw [hcalls]
      rfl
    · rw [hcalls]
      rfl
  · rintro s c t ⟨y, asks, hruns, hy, hcalls⟩
    obtain ⟨rs, hbesides⟩ := s.besides_happen t
    rw [← hy] at hbesides
    exact ⟨_, asks, hruns.trans hbesides.runs, rfl, hcalls⟩
  · exact ⟨_, false, .single (.make c hfresh), hx, by rw [hc]; rfl⟩

/-- A window that a session opens is opened in a run of the call. -/
theorem runs_openWindow {result : Except LauncherError String} (h : s.openWindow = (s', some result)) :
    ∃ v, (Scene.begin s.launcher).Runs ⟨s'.launcher, .returned result, v⟩ := by
  have hloop : ∃ o v, (s.run (.opening .begun)).2 = .opening o ∧
      (Scene.begin s.launcher).Runs ⟨(s.run (.opening .begun)).1.launcher, o, v⟩ := by
    refine callLoop_preserves (P := fun t c => ∃ o v, c = .opening o ∧
      (Scene.begin s.launcher).Runs ⟨t.launcher, o, v⟩) ?_ ?_ _ _ ?_
    · rintro t _ l c' ⟨o, v, rfl, hruns⟩ hmem
      obtain ⟨⟨l', o'⟩, ho, heq⟩ := List.mem_map.1 hmem
      obtain ⟨rfl, rfl⟩ := Prod.mk.inj heq
      exact ⟨o', o'.verdict?.or v, rfl, hruns.tail (.call _ o' ho)⟩
    · rintro t c time ⟨o, v, hc, hruns⟩
      obtain ⟨rs, hbesides⟩ := t.besides_happen time
      exact ⟨o, v, hc, hruns.trans (Scene.runs_background o v hbesides.background)⟩
    · exact ⟨.begun, none, rfl, .refl⟩
  obtain ⟨o, v, ho, hruns⟩ := hloop
  have hrun : s.run (.opening .begun) = ((s.run (.opening .begun)).1, .opening o) := Prod.ext rfl ho
  rw [openWindow, hrun] at h
  cases o with
  | returned r =>
    obtain ⟨rfl, hr⟩ := Prod.mk.inj h
    obtain rfl := Option.some.inj hr
    exact ⟨v, hruns⟩
  | _ => cases h

/-- A window that a session opens comes to an outcome by what the host answers, what the cleanup came to and some
verdict. -/
theorem outcome_openWindow (hs : Started s.launcher) {result : Except LauncherError String}
    (h : s.openWindow = (s', some result)) : ∃ v, Opening.Outcome s.launcher s'.launcher v result := by
  obtain ⟨v, hruns⟩ := runs_openWindow h
  exact ⟨v, ((Scene.known_begin hs).runs hruns).2.outcome rfl⟩

end AppLauncher.Launcher.Session
