import AppLauncher.Launcher.Shutdown
import AppLauncher.Proofs.Server.Running

/-!
# What goes on beside a call

While a call waits, time passes, the cleanup comes to its end, the server goes on, and others may ask the server to
stop or wait for it (`Background`).  All that a call has learned of the cleanup and of the server stays true
meanwhile (`State.Carries`).  The launchers of interest are those on which nothing but starts was called before
(`OnlyStarted`).
-/

namespace AppLauncher.Launcher

open AppLauncher.Server

namespace State

/-- What the cleanup has come to, once it is over; a success of nothing where there is none. -/
def cleaned? (s : State) : Option (Except LauncherError (Option Cache.Report)) :=
  match s.cleanup with
  | none => some (.ok none)
  | some k => k.result?.map fun r => r.map some

/-- The launcher has a server that is watched. -/
def Watched (s : State) : Prop := ∃ r, s.server = some r ∧ r.Watched

/-- The watcher of the server has been asked to kill it. -/
def Asked (s : State) : Prop := ∃ r, s.server = some r ∧ r.supervision.requested = true

/-- The server's process has ended. -/
def ServerEnded (s : State) : Prop := ∃ r, s.server = some r ∧ r.HasEnded

/-- What calls and the background leave of a launcher: settings and window are the same, the cleanup that is over
has the same result, and the server has only gone on. -/
structure Carries (s t : State) : Prop where
  config : t.config = s.config
  window : t.window = s.window
  hasCleanup : t.cleanup.isSome = s.cleanup.isSome
  cleaned : ∀ c, s.cleaned? = some c → t.cleaned? = some c
  server : ∀ r, s.server = some r → ∃ r', t.server = some r' ∧ r.GoesOn r'

namespace Carries

variable {s t u : State}

theorem refl (s : State) : s.Carries s := ⟨rfl, rfl, rfl, fun _ h => h, fun r h => ⟨r, h, .refl r⟩⟩

theorem trans (h : s.Carries t) (h' : t.Carries u) : s.Carries u where
  config := h'.config.trans h.config
  window := h'.window.trans h.window
  hasCleanup := h'.hasCleanup.trans h.hasCleanup
  cleaned c hc := h'.cleaned c (h.cleaned c hc)
  server r hr := by
    obtain ⟨r', hr', hgo⟩ := h.server r hr
    obtain ⟨r'', hr'', hgo'⟩ := h'.server r' hr'
    exact ⟨r'', hr'', hgo.trans hgo'⟩

theorem watched (h : s.Carries t) (hs : s.Watched) : t.Watched := by
  obtain ⟨r, hr, hw⟩ := hs
  obtain ⟨r', hr', hgo⟩ := h.server r hr
  exact ⟨r', hr', hgo.watched hw⟩

theorem asked (h : s.Carries t) (hs : s.Asked) : t.Asked := by
  obtain ⟨r, hr, ha⟩ := hs
  obtain ⟨r', hr', hgo⟩ := h.server r hr
  exact ⟨r', hr', hgo.requested ha⟩

theorem serverEnded (h : s.Carries t) (hw : s.Watched) (hs : s.ServerEnded) : t.ServerEnded := by
  obtain ⟨r, hr, hend⟩ := hs
  obtain ⟨r₁, hr₁, hwatch⟩ := hw
  obtain ⟨r', hr', hgo⟩ := h.server r hr
  rw [hr] at hr₁
  obtain rfl := Option.some.inj hr₁
  exact ⟨r', hr', hgo.hasEnded hwatch hend⟩

end Carries

/-- Lines in the log are nothing that a call depends on. -/
theorem carries_say (s : State) (lines : List Log.Line) : s.Carries (s.say lines) :=
  ⟨rfl, rfl, rfl, fun _ h => h, fun r h => ⟨r, h, .refl r⟩⟩

/-- Nor are calls to the window. -/
theorem carries_ask (s : State) (c : Window.Call) : s.Carries (s.ask c).1 :=
  ⟨rfl, rfl, rfl, fun _ h => h, fun r h => ⟨r, h, .refl r⟩⟩

theorem carries_server {s : State} {r r' : Running} (hr : s.server = some r) (h : r.GoesOn r') :
    s.Carries { s with server := some r' } where
  config := rfl
  window := rfl
  hasCleanup := rfl
  cleaned _ hc := hc
  server r₁ hr₁ := by
    rw [hr] at hr₁
    obtain rfl := Option.some.inj hr₁
    exact ⟨r', rfl, h⟩

end State

/-! ### The background -/

/-- What can happen beside a call: time passes and connections are accepted, lines are written, the cleanup ends in
whatever way, the server goes on. -/
inductive Background (s : State) : State → Prop
  | time (clock : Nat) (accepting : Option Nat) (hclock : s.clock ≤ clock) :
      Background s { s with clock, accepting }
  | log (lines : List Log.Line) : Background s (s.say lines)
  | cleanup (k : Cleanup) (stage : Stage) (hk : s.cleanup = some k) (hpending : k.result? = none) :
      Background s { s with cleanup := some { k with stage } }
  | server (r r' : Running) (hr : s.server = some r) (h : r.GoesOn r') : Background s { s with server := some r' }

namespace Background

variable {s t : State}

theorem carries (h : Background s t) : s.Carries t := by
  cases h with
  | time clock accepting hclock => exact ⟨rfl, rfl, rfl, fun _ h => h, fun r h => ⟨r, h, .refl r⟩⟩
  | log lines => exact s.carries_say lines
  | cleanup k stage hk hpending =>
    refine ⟨rfl, rfl, by simp [hk], fun c hc => ?_, fun r h => ⟨r, h, .refl r⟩⟩
    simp [State.cleaned?, hk, hpending] at hc
  | server r r' hr h => exact State.carries_server hr h

theorem calls_eq (h : Background s t) : t.calls = s.calls := by
  cases h <;> rfl

theorem unclaimed_eq (h : Background s t) : t.unclaimed = s.unclaimed := by
  cases h <;> rfl

end Background

/-! ### Launchers that were started -/

namespace State

/-- A start leaves the server as it was, or puts a fresh one in its place. -/
theorem beginServer_cases (w : World) (s : State) :
    (∃ e, s.beginServer w = (s, .error e)) ∨ ∃ pid b lines, s.beginServer w =
      ({ s with
        server := some (.start s.clock pid b s.config.readiness.watchedLine)
        tasks := s.tasks + tasksPerServer
        log := s.log ++ lines }, .ok ()) := by
  unfold beginServer spawn
  cases w.launch w.disk s.config.server.interpreter [s.config.server.script] with
  | error f => exact Or.inl ⟨_, rfl⟩
  | ok b => exact Or.inr ⟨_, b, _, rfl⟩

theorem error_of_beginServer {s t : State} {w : World} {e : LauncherError} (h : s.beginServer w = (t, .error e)) :
    t = s ∧ ∃ f, e = .spawn s.config.server.interpreter f := by
  unfold beginServer spawn at h
  cases hl : w.launch w.disk s.config.server.interpreter [s.config.server.script] with
  | error f =>
    simp only [hl, Prod.mk.injEq, Except.error.injEq] at h
    exact ⟨h.1.symm, f, h.2.symm⟩
  | ok b => simp [hl] at h

/-- A server that was just started is watched, and no more than the server has changed. -/
theorem watched_of_beginServer {s t : State} {w : World} (h : s.beginServer w = (t, .ok ())) :
    t.Watched ∧ t.config = s.config ∧ t.window = s.window ∧ t.cleanup = s.cleanup ∧ t.unclaimed = s.unclaimed := by
  rcases s.beginServer_cases w with ⟨e, he⟩ | ⟨pid, b, lines, hok⟩
  · simp [he] at h
  · rw [hok, Prod.mk.injEq] at h
    obtain ⟨rfl, -⟩ := h
    exact ⟨⟨_, rfl, Running.watched_start _ pid b _⟩, rfl, rfl, rfl, rfl⟩

/-- There is no cleanup to begin, or one that is still to run. -/
theorem beginCleanup_cases (s : State) : s.beginCleanup = s ∨ ∃ n lines, s.beginCleanup =
    { s with tasks := n, cleanup := some ⟨n, .pending⟩, unclaimed := true, log := s.log ++ lines } := by
  unfold beginCleanup
  split
  · exact Or.inr ⟨_, _, rfl⟩
  · exact Or.inl rfl

theorem server_beginCleanup (s : State) : s.beginCleanup.server = s.server := by
  rcases s.beginCleanup_cases with h | ⟨n, lines, h⟩ <;> rw [h]

end State

/-- A launcher on which nothing but starts was called so far, however they ended, and whatever went on since. -/
inductive OnlyStarted : State → Prop
  | new (s : State) (hcleanup : s.cleanup = none) (hunclaimed : s.unclaimed = false) (hserver : s.server = none) :
      OnlyStarted s
  | start (s : State) (w : World) (h : OnlyStarted s) : OnlyStarted (s.start w).1
  | background (s t : State) (h : OnlyStarted s) (hbg : Background s t) : OnlyStarted t

namespace OnlyStarted

variable {s : State}

/-- Whoever asks first for the result of the cleanup gets it, and there is one only if the settings want it. -/
private theorem cleanup_cases (h : OnlyStarted s) :
    s.unclaimed = s.cleanup.isSome ∧ (s.cleanup.isSome = true → s.config.cache.clearOnStart = true) := by
  induction h with
  | new s hcleanup hunclaimed hserver => simp [hcleanup, hunclaimed]
  | start s w h ih =>
    have hbegin : s.beginCleanup.unclaimed = s.beginCleanup.cleanup.isSome ∧
        (s.beginCleanup.cleanup.isSome = true → s.beginCleanup.config.cache.clearOnStart = true) := by
      unfold State.beginCleanup
      by_cases hc : s.config.cache.clearOnStart = true
      · simp [hc]
      · simpa [hc] using ih
    rcases s.beginCleanup.beginServer_cases w with ⟨e, hs⟩ | ⟨pid, b, lines, hs⟩
    · rw [State.start, hs]
      exact hbegin
    · rw [State.start, hs]
      exact hbegin
  | background s t h hbg ih => rwa [hbg.unclaimed_eq, hbg.carries.hasCleanup, hbg.carries.config]

theorem unclaimed_eq (h : OnlyStarted s) : s.unclaimed = s.cleanup.isSome := (cleanup_cases h).1

theorem cleaned?_of_disabled (h : OnlyStarted s) (hc : s.config.cache.clearOnStart = false) :
    s.cleaned? = some (.ok none) := by
  have := (cleanup_cases h).2
  cases hk : s.cleanup with
  | none => simp [State.cleaned?, hk]
  | some k => simp [hk, hc] at this

theorem watched (h : OnlyStarted s) : ∀ r, s.server = some r → r.Watched := by
  induction h with
  | new s hcleanup hunclaimed hserver => simp [hserver]
  | start s w h ih =>
    rcases s.beginCleanup.beginServer_cases w with ⟨e, hs⟩ | ⟨pid, b, lines, hs⟩
    · rw [State.start, hs, State.server_beginCleanup]
      exact ih
    · rw [State.start, hs]
      intro r' hr'
      obtain rfl := Option.some.inj hr'
      exact Running.watched_start _ pid b _
  | background s t h hbg ih =>
    intro r' hr'
    cases hserver : s.server with
    | none =>
      have : t.server = none := by
        cases hbg with
        | server r r' hr h => simp [hserver] at hr
        | _ => exact hserver
      simp [this] at hr'
    | some r =>
      obtain ⟨r₁, hr₁, hgo⟩ := hbg.carries.server r hserver
      rw [hr₁] at hr'
      obtain rfl := Option.some.inj hr'
      exact hgo.watched (ih r hserver)

end OnlyStarted

/-- A launcher on which a start has succeeded, and on which nothing but starts was called. -/
inductive Started : State → Prop
  | start (s : State) (w : World) (h : OnlyStarted s) (hok : (s.start w).2 = .ok ()) : Started (s.start w).1
  | again (s : State) (w : World) (h : Started s) : Started (s.start w).1
  | background (s t : State) (h : Started s) (hbg : Background s t) : Started t

namespace Started

variable {s : State}

theorem onlyStarted (h : Started s) : OnlyStarted s := by
  induction h with
  | start s w h hok => exact .start s w h
  | again s w h ih => exact .start s w ih
  | background s t h hbg ih => exact .background s t ih hbg

private theorem server_isSome (h : Started s) : s.server.isSome := by
  induction h with
  | start s w h hok =>
    unfold State.start State.beginServer spawn at hok ⊢
    cases hl : w.launch w.disk s.beginCleanup.config.server.interpreter [s.beginCleanup.config.server.script] with
    | error f => simp [hl] at hok
    | ok b => rfl
  | again s w h ih =>
    rcases s.beginCleanup.beginServer_cases w with ⟨e, hs⟩ | ⟨pid, b, lines, hs⟩
    · rw [State.start, hs, State.server_beginCleanup]
      exact ih
    · rw [State.start, hs]
      rfl
  | background s t h hbg ih =>
    obtain ⟨r, hr⟩ := Option.isSome_iff_exists.1 ih
    obtain ⟨r', hr', -⟩ := hbg.carries.server r hr
    simp [hr']

theorem watched (h : Started s) : s.Watched := by
  obtain ⟨r, hr⟩ := Option.isSome_iff_exists.1 h.server_isSome
  exact ⟨r, hr, h.onlyStarted.watched r hr⟩

end Started

end AppLauncher.Launcher
