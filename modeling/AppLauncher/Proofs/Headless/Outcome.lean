import AppLauncher.Headless.Run
import AppLauncher.Proofs.Launcher.Session
import AppLauncher.Proofs.Launcher.Settled

/-!
# How a run without a screen ends

A run starts a launcher and makes one call after another, while the cleanup, the server and the time go on beside it
and somebody may interrupt its wait for the end of the server (`Course`).  In whatever order all this happens, a run
that returns fails if and only if the server could not be started or the cleanup has failed, and it leaves no server
behind (`returns_error_iff`).
-/

namespace AppLauncher.Headless

open AppLauncher.Launcher AppLauncher.Output AppLauncher.Server

/-- How far a run has come. -/
inductive Phase
  | begun
  /-- The cleanup was begun; the server is to be started. -/
  | cleaning
  /-- The window is opened, the end of the server is awaited, or the server is stopped. -/
  | calling (c : Call)
  | returned (result : Except LauncherError Unit)

/-- A run, and what came of starting the server once that was tried. -/
structure Course where
  launcher : State
  phase : Phase := .begun
  spawned? : Option (Except LauncherError Unit) := none

namespace Course

/-- A run that has done nothing yet. -/
def new (config : Config) : Course := { launcher := { config, window := Window.headless } }

/-- What can come next.  The server is started in any world, and whatever goes on beside calls goes on until the run
has returned. -/
inductive Step (sinks : Sinks) : Course → Course → Prop
  | cleans (s : State) : Step sinks ⟨s, .begun, none⟩ ⟨s.beginCleanup, .cleaning, none⟩
  | refuses (s t : State) (w : World) (e : LauncherError) (h : s.beginServer w = (t, .error e)) :
      Step sinks ⟨s, .cleaning, none⟩ ⟨t, .returned (.error e), some (.error e)⟩
  | spawns (s t : State) (w : World) (h : s.beginServer w = (t, .ok ())) :
      Step sinks ⟨s, .cleaning, none⟩ ⟨t, .calling (.opening .begun), some (.ok ())⟩
  | goesOn (s t : State) (c c' : Call) (o : Option (Except LauncherError Unit)) (h : (t, c') ∈ c.next s) :
      Step sinks ⟨s, .calling c, o⟩ ⟨t, .calling c', o⟩
  | fails (s : State) (r : Except LauncherError String) (e : LauncherError) (o : Option (Except LauncherError Unit))
      (h : fatal? r = some e) :
      Step sinks ⟨s, .calling (.opening (.returned r)), o⟩ ⟨s, .returned (.error e), o⟩
  | waits (s : State) (r : Except LauncherError String) (o : Option (Except LauncherError Unit))
      (h : fatal? r = none) :
      Step sinks ⟨s, .calling (.opening (.returned r)), o⟩ ⟨s, .calling (.exit none), o⟩
  | closes (s : State) (r : Except LauncherError Outcome) (o : Option (Except LauncherError Unit)) :
      Step sinks ⟨s, .calling (.exit (some r)), o⟩ ⟨(close s r).1, .returned (close s r).2, o⟩
  /-- Somebody interrupts the wait for the end of the server. -/
  | interrupts (s : State) (o : Option (Except LauncherError Unit)) :
      Step sinks ⟨s, .calling (.exit none), o⟩ ⟨s.say [interruptionLine], .calling (.stop .begun), o⟩
  | stops (s : State) (outcome : Option Outcome) (o : Option (Except LauncherError Unit)) :
      Step sinks ⟨s, .calling (.stop (.returned outcome)), o⟩ ⟨s, .returned (.ok ()), o⟩
  | beside (s t : State) (p : Phase) (o : Option (Except LauncherError Unit)) (rs : List Read)
      (h : Beside sinks s rs t) (hp : ∀ r, p ≠ .returned r) : Step sinks ⟨s, p, o⟩ ⟨t, p, o⟩

def Runs (sinks : Sinks) : Course → Course → Prop := Relation.ReflTransGen (Step sinks)

end Course

variable {s t : State}

/-! ### Opening the window and waiting for the end -/

/-- The cleanup has succeeded, or there was none. -/
def IsClean (s : State) : Prop := ∃ report, s.cleaned? = some (.ok report)

/-- What a wait for readiness has come to leaves the window up. -/
def IsPlain (v : Option Verdict) : Prop := ∀ e, v = some (.error e) → e.isFatal = false

theorem IsPlain.move {o o' : Opening} {v : Option Verdict} (h : Opening.Move s o t o') (ho : IsPlain o.verdict?)
    (hv : IsPlain v) : IsPlain o'.verdict? ∧ IsPlain (o'.verdict?.or v) := by
  have hheld : IsPlain o'.verdict? := by
    intro e he
    rcases h.judged he with hbefore | ⟨since, htrue⟩
    · exact ho e hbefore
    · exact Opening.isFatal_of_mem_verdicts htrue
  refine ⟨hheld, fun e he => ?_⟩
  rcases Option.or_eq_some_iff.1 he with he | ⟨-, he⟩
  · exact hheld e he
  · exact hv e he

/-- Without a screen the window cannot fail, so what opening it comes to is decided by the cleanup: the failure of the
cleanup ends the run, and the server has ended then; else the run goes on. -/
theorem fatal?_of_returned {s₀ : State} {v : Option Verdict} {r : Except LauncherError String}
    (h : Scene.Known s₀ ⟨s, .returned r, v⟩) (hwindow : s.window = Window.headless) (hv : IsPlain v)
    (hclean : ∀ e, s.cleaned? = some (.error e) → e.isFatal = true) :
    (∃ e, fatal? r = some e ∧ s.cleaned? = some (.error e) ∧ s.ServerEnded) ∨ (fatal? r = none ∧ IsClean s) := by
  have hout := h.outcome rfl
  have hanswer : ∀ c, s₀.window.answer c = none := by
    intro c
    rw [← h.carries.window, hwindow]
    cases c <;> rfl
  obtain ⟨c, hc⟩ := hout.cleaned
  cases c with
  | error e =>
    obtain ⟨-, rfl, hended⟩ := hout.notCleaned e (hanswer _) hc
    exact Or.inl ⟨e, by simp [fatal?, hclean e hc], hc, hended⟩
  | ok report =>
    refine Or.inr ⟨?_, report, hc⟩
    obtain ⟨verdict, rfl⟩ := hout.judged (hanswer _) ⟨report, hc⟩
    cases verdict with
    | ok u =>
      obtain ⟨-, hr⟩ := hout.ready report (hanswer _) hc rfl
      rw [hr, hanswer]
      rfl
    | error e =>
      obtain ⟨-, hr⟩ := hout.notReady report e (hanswer _) hc rfl
      rw [hr, hanswer]
      simp [fatal?, hv e rfl]

/-- Whoever waits for the end of a server that is watched gets its outcome, and the server has ended then. -/
theorem serverEnded_of_exit {r : Option (Except LauncherError Outcome)} (hw : s.Watched)
    (h : (t, .exit r) ∈ (Call.exit none).next s) : t = s ∧ ∃ o, r = some (.ok o) ∧ s.ServerEnded := by
  obtain ⟨server, hserver, hwatch⟩ := hw
  simp only [Call.next, hserver, Option.mem_toList, Option.map_eq_some_iff, Prod.mk.injEq, Call.exit.injEq] at h
  obtain ⟨o, ho, rfl, rfl⟩ := h
  rw [Running.awaited?, hwatch.1.awaited?_eq] at ho
  exact ⟨rfl, o, rfl, server, hserver, o, ho, hwatch.1.hasLeft_of_exit ho⟩

/-! ### What is known on the way -/

/-- What is known while a call goes on.  The window is opened as of a launcher that was started; the calls that come
after it find the cleanup over, and well. -/
def CallHolds (s : State) : Call → Prop
  | .opening o => ∃ s₀ v, Scene.Known s₀ ⟨s, o, v⟩ ∧ IsPlain o.verdict? ∧ IsPlain v
  | .exit r => s.Watched ∧ IsClean s ∧ ∀ r', r = some r' → ∃ o, r' = .ok o ∧ s.ServerEnded
  | .stop p => s.Watched ∧ IsClean s ∧ p.Holds s
  | .shutdown _ => False

/-- How a run has ended: the server could not be started, and there is none; or it was started, its process has ended,
and the run has failed with the error of the cleanup, or succeeded as the cleanup has. -/
inductive Ended (s : State) : Option (Except LauncherError Unit) → Except LauncherError Unit → Prop
  | unspawned (e : LauncherError) (hserver : s.server = none) : Ended s (some (.error e)) (.error e)
  | uncleaned (e : LauncherError) (hclean : s.cleaned? = some (.error e)) (hended : s.ServerEnded) :
      Ended s (some (.ok ())) (.error e)
  | done (hclean : IsClean s) (hended : s.ServerEnded) : Ended s (some (.ok ())) (.ok ())

namespace Ended

variable {spawned? : Option (Except LauncherError Unit)} {result : Except LauncherError Unit}

theorem error_iff (h : Ended s spawned? result) : (∃ e, result = .error e) ↔
    (∃ e, spawned? = some (.error e)) ∨ ∃ e, s.cleaned? = some (.error e) := by
  cases h with
  | unspawned e hserver => simp
  | uncleaned e hclean hended => simp [hclean]
  | done hclean hended =>
    obtain ⟨report, hreport⟩ := hclean
    simp [hreport]

theorem cause {e : LauncherError} (h : Ended s spawned? (.error e)) :
    spawned? = some (.error e) ∨ (spawned? = some (.ok ()) ∧ s.cleaned? = some (.error e)) := by
  cases h with
  | unspawned e hserver => exact Or.inl rfl
  | uncleaned e hclean hended => exact Or.inr ⟨rfl, hclean⟩

theorem leaves_nothing (h : Ended s spawned? result) : (∃ e, spawned? = some (.error e)) ∧ s.server = none ∨
    spawned? = some (.ok ()) ∧ s.ServerEnded ∧ ∃ c, s.cleaned? = some c := by
  cases h with
  | unspawned e hserver => exact Or.inl ⟨⟨e, rfl⟩, hserver⟩
  | uncleaned e hclean hended => exact Or.inr ⟨rfl, hended, _, hclean⟩
  | done hclean hended =>
    obtain ⟨report, hreport⟩ := hclean
    exact Or.inr ⟨rfl, hended, _, hreport⟩

end Ended

/-- What is known at each point of a run. -/
def Phase.Holds (s : State) (spawned? : Option (Except LauncherError Unit)) : Phase → Prop
  | begun => spawned? = none ∧ s.server = none ∧ s.cleanup = none ∧ s.unclaimed = false
  | cleaning => spawned? = none ∧ s.server = none ∧ s.unclaimed = s.cleanup.isSome
  | calling c => spawned? = some (.ok ()) ∧ CallHolds s c
  | returned r => Ended s spawned? r

/-- What is known of a run. -/
structure Course.Known (settings : Config) (x : Course) : Prop where
  config : x.launcher.config = settings
  window : x.launcher.window = Window.headless
  /-- A cleanup that has failed has failed in one of the ways that the settings leave. -/
  cleans : ∀ k e, x.launcher.cleanup = some k → k.result? = some (.error e) → Cache.Failure settings.cache e
  spawn : ∀ e, x.spawned? = some (.error e) → ∃ f, e = .spawn settings.server.interpreter f
  phase : x.phase.Holds x.launcher x.spawned?

theorem IsClean.carries (h : IsClean s) (hst : s.Carries t) : IsClean t := by
  obtain ⟨report, hreport⟩ := h
  exact ⟨report, hst.cleaned _ hreport⟩

theorem CallHolds.background {c : Call} (h : CallHolds s c) (hst : Background s t) : CallHolds t c := by
  have hcarries := hst.carries
  cases c with
  | opening o =>
    obtain ⟨s₀, v, hknown, hplain⟩ := h
    exact ⟨s₀, v, (hknown.step (.background t hst)).2, hplain⟩
  | exit r =>
    obtain ⟨hw, hclean, hr⟩ := h
    refine ⟨hcarries.watched hw, hclean.carries hcarries, fun r' hr' => ?_⟩
    obtain ⟨o, ho, hended⟩ := hr r' hr'
    exact ⟨o, ho, hcarries.serverEnded hw hended⟩
  | stop p =>
    obtain ⟨hw, hclean, hp⟩ := h
    exact ⟨hcarries.watched hw, hclean.carries hcarries, hp.carries hw hcarries⟩
  | shutdown p => exact h

theorem CallHolds.next {c c' : Call} (h : CallHolds s c) (hn : (t, c') ∈ c.next s) : CallHolds t c' := by
  rcases Call.next_cases hn with ⟨p, p', rfl, rfl, hp⟩ | ⟨p, p', rfl, -, -⟩ | ⟨o, o', rfl, rfl, hmove⟩ |
    ⟨r, rfl, rfl, -⟩
  · obtain ⟨hw, hclean, -⟩ := h
    obtain ⟨hst, -, hp'⟩ := Stop.holds_next? hw hp
    exact ⟨hst.carries.watched hw, hclean.carries hst.carries, hp'⟩
  · exact h.elim
  · obtain ⟨s₀, v, hknown, ho, hv⟩ := h
    obtain ⟨hst, ho'⟩ := hmove.holds hknown.carries hknown.watched hknown.holds
    exact ⟨s₀, _, ⟨hknown.carries.trans hst, hst.watched hknown.watched, ho'⟩, IsPlain.move hmove ho hv⟩
  · obtain ⟨hw, hclean, -⟩ := h
    obtain ⟨rfl, o, hr, hended⟩ := serverEnded_of_exit hw hn
    refine ⟨hw, hclean, fun r' hr' => ?_⟩
    obtain rfl : r' = .ok o := Option.some.inj (hr'.symm.trans hr)
    exact ⟨o, rfl, hended⟩

theorem Phase.Holds.background {p : Phase} {o : Option (Except LauncherError Unit)} (h : p.Holds s o)
    (hp : ∀ r, p ≠ .returned r) (hst : Background s t) : p.Holds t o := by
  have hserver : s.server = none → t.server = none := by
    intro hnone
    simpa [hnone] using hst.keeps.hasServer
  cases p with
  | begun =>
    obtain ⟨ho, hnone, hcleanup, hunclaimed⟩ := h
    refine ⟨ho, hserver hnone, ?_, hst.unclaimed_eq.trans hunclaimed⟩
    simpa [hcleanup] using hst.carries.hasCleanup
  | cleaning =>
    obtain ⟨ho, hnone, hunclaimed⟩ := h
    exact ⟨ho, hserver hnone, hst.unclaimed_eq.trans (hunclaimed.trans hst.carries.hasCleanup.symm)⟩
  | calling c => exact ⟨h.1, h.2.background hst⟩
  | returned r => exact absurd rfl (hp r)

/-! ### Whole runs -/

namespace Course

variable {sinks : Sinks} {settings : Config} {x y : Course}

theorem known_new (settings : Config) : (new settings).Known settings where
  config := rfl
  window := rfl
  cleans := by simp [new]
  spawn := by simp [new]
  phase := ⟨rfl, rfl, rfl, rfl⟩

theorem Known.cleaned (h : x.Known settings) {e : LauncherError} (he : x.launcher.cleaned? = some (.error e)) :
    Cache.Failure settings.cache e := by
  unfold State.cleaned? at he
  cases hk : x.launcher.cleanup with
  | none => simp [hk] at he
  | some k =>
    simp only [hk, Option.map_eq_some_iff] at he
    obtain ⟨r, hr, hmap⟩ := he
    cases r with
    | ok report => cases hmap
    | error e' =>
      obtain rfl : e' = e := Except.error.inj hmap
      exact h.cleans k e' hk hr

/-- What is known of a run is still known after a call has gone on. -/
theorem Known.goesOn {c c' : Call} {o : Option (Except LauncherError Unit)}
    (h : Known settings ⟨s, .calling c, o⟩) (hn : (t, c') ∈ c.next s) : Known settings ⟨t, .calling c', o⟩ := by
  have huses := Call.uses hn
  refine ⟨huses.config.trans h.config, huses.window.trans h.window, fun k e hk he => ?_, h.spawn, h.phase.1,
    h.phase.2.next hn⟩
  exact h.cleans k e (huses.cleanup ▸ hk) he

theorem Known.step (h : x.Known settings) (hxy : Step sinks x y) : y.Known settings := by
  cases hxy with
  | cleans s =>
    obtain ⟨ho, hserver, hcleanup, hunclaimed⟩ := h.phase
    rcases s.beginCleanup_cases with hb | ⟨n, lines, hb⟩
    · rw [hb]
      have hunasked : s.unclaimed = s.cleanup.isSome := hunclaimed.trans (congrArg Option.isSome hcleanup).symm
      exact ⟨h.config, h.window, h.cleans, h.spawn, rfl, hserver, hunasked⟩
    · rw [hb]
      refine ⟨h.config, h.window, fun k e hk he => ?_, h.spawn, rfl, hserver, rfl⟩
      obtain rfl := Option.some.inj hk
      cases he
  | refuses s t w e hb =>
    obtain ⟨-, hserver, -⟩ := h.phase
    obtain ⟨rfl, f, hf⟩ := State.error_of_beginServer hb
    refine ⟨h.config, h.window, h.cleans, fun e' he' => ⟨f, ?_⟩, .unspawned e hserver⟩
    obtain rfl : e = e' := Except.error.inj (Option.some.inj he')
    rw [hf, h.config]
  | spawns s t w hb =>
    obtain ⟨-, -, hunclaimed⟩ := h.phase
    obtain ⟨hw, hconfig, hwindow, hcleanup, hu⟩ := State.watched_of_beginServer hb
    refine ⟨hconfig.trans h.config, hwindow.trans h.window, hcleanup ▸ h.cleans, by simp, rfl, t, none, ?_⟩
    have hunasked : t.unclaimed = t.cleanup.isSome := by rw [hu, hcleanup, hunclaimed]
    exact ⟨⟨.refl t, hw, rfl, rfl, hunasked⟩, by simp [IsPlain, Opening.verdict?], by simp [IsPlain]⟩
  | goesOn s t c c' o hn => exact h.goesOn hn
  | fails s r e o hr =>
    obtain ⟨ho, s₀, v, hknown, -, hv⟩ := h.phase
    rcases fatal?_of_returned hknown h.window hv fun e he => (h.cleaned he).isFatal with
      ⟨e', hr', hclean, hended⟩ | ⟨hr', -⟩
    · obtain rfl : e = e' := Option.some.inj (hr.symm.trans hr')
      exact ⟨h.config, h.window, h.cleans, h.spawn, ho ▸ .uncleaned e hclean hended⟩
    · cases hr.symm.trans hr'
  | waits s r o hr =>
    obtain ⟨ho, s₀, v, hknown, -, hv⟩ := h.phase
    rcases fatal?_of_returned hknown h.window hv fun e he => (h.cleaned he).isFatal with
      ⟨e', hr', -, -⟩ | ⟨-, hclean⟩
    · cases hr.symm.trans hr'
    · exact ⟨h.config, h.window, h.cleans, h.spawn, ho, hknown.watched, hclean, by simp⟩
  | closes s r o =>
    obtain ⟨ho, -, hclean, hr⟩ := h.phase
    obtain ⟨outcome, rfl, hended⟩ := hr r rfl
    exact ⟨h.config, h.window, h.cleans, h.spawn, ho ▸ .done hclean hended⟩
  | interrupts s o =>
    obtain ⟨ho, hw, hclean, -⟩ := h.phase
    exact ⟨h.config, h.window, h.cleans, h.spawn, ho, hw, hclean, trivial⟩
  | stops s outcome o =>
    obtain ⟨ho, -, hclean, hended⟩ := h.phase
    exact ⟨h.config, h.window, h.cleans, h.spawn, ho ▸ .done hclean hended⟩
  | beside s t p o rs hst hp =>
    have hcarries := hst.background.carries
    refine ⟨hcarries.config.trans h.config, hcarries.window.trans h.window, fun k e hk he => ?_, h.spawn,
      h.phase.background hp hst.background⟩
    rcases hst.failure_cases hk he with hbefore | hfailure
    · exact h.cleans k e hbefore he
    · exact h.config ▸ hfailure

theorem Known.runs (h : x.Known settings) (hxy : x.Runs sinks y) : y.Known settings := by
  induction hxy with
  | refl => exact h
  | tail _ hlast ih => exact ih.step hlast

/-! ### Every run can return -/

theorem runs_unblocks {p : Phase} (o : Option (Except LauncherError Unit)) (hp : ∀ r, p ≠ .returned r)
    (h : Relation.ReflTransGen Unblocks s t) : Runs sinks ⟨s, p, o⟩ ⟨t, p, o⟩ := by
  induction h with
  | refl => exact .refl
  | tail _ hlast ih =>
    obtain ⟨rs, hbeside⟩ := hlast.beside sinks
    exact ih.tail (.beside _ _ p o rs hbeside hp)

/-- A call that opens the window advances in a run as it does alone. -/
theorem runs_advance {x y : Scene} (o : Option (Except LauncherError Unit))
    (h : Relation.ReflTransGen Scene.Advance x y) :
    Runs sinks ⟨x.launcher, .calling (.opening x.opening), o⟩ ⟨y.launcher, .calling (.opening y.opening), o⟩ := by
  induction h with
  | refl => exact .refl
  | tail _ hlast ih =>
    refine ih.trans ?_
    cases hlast with
    | call s p hp =>
      exact .single (.goesOn _ s _ (.opening p) o (List.mem_map.2 ⟨(s, p), hp, rfl⟩))
    | unblocks s hs => exact runs_unblocks o (by simp) (.single hs)

/-- A run that can still return. -/
def CanReturn (sinks : Sinks) (x : Course) : Prop := ∃ y result, x.Runs sinks y ∧ y.phase = .returned result

theorem Runs.canReturn (hxy : x.Runs sinks y) (h : y.CanReturn sinks) : x.CanReturn sinks := by
  obtain ⟨z, result, hyz, hz⟩ := h
  exact ⟨z, result, hxy.trans hyz, hz⟩

theorem canReturn_stop {p : Stop} {o : Option (Except LauncherError Unit)} (hw : s.Watched) (hp : p.Holds s) :
    CanReturn sinks ⟨s, .calling (.stop p), o⟩ := by
  -- by the number of steps that the stop has still to make; the watcher may go on in between
  induction hn : p.rank using Nat.strongRecOn generalizing s p with
  | ind n ih =>
    by_cases hreturned : ∃ outcome, p = .returned outcome
    · obtain ⟨outcome, rfl⟩ := hreturned
      exact ⟨_, _, .single (.stops s outcome o), rfl⟩
    · obtain ⟨t, hst, hnext⟩ := hp.canGo hw fun outcome hp => hreturned ⟨outcome, hp⟩
      obtain ⟨⟨u, p'⟩, hp'⟩ := Option.isSome_iff_exists.1 hnext
      have hwt : t.Watched := (carries_of_unblocks hst).watched hw
      obtain ⟨hleaves, -, hholds⟩ := Stop.holds_next? hwt hp'
      have hruns : Runs sinks ⟨s, .calling (.stop p), o⟩ ⟨u, .calling (.stop p'), o⟩ :=
        (runs_unblocks o (by simp) hst).tail (.goesOn t u _ (.stop p') o (by simp [Call.next, hp']))
      exact hruns.canReturn (ih _ (hn ▸ Stop.rank_next? hp') (hleaves.carries.watched hwt) hholds rfl)

theorem canReturn_exit {r : Option (Except LauncherError Outcome)} {o : Option (Except LauncherError Unit)}
    (hw : s.Watched) : CanReturn sinks ⟨s, .calling (.exit r), o⟩ := by
  cases r with
  | some r => exact ⟨_, _, .single (.closes s r o), rfl⟩
  | none =>
    have hstop : CanReturn sinks ⟨s.say [interruptionLine], .calling (.stop .begun), o⟩ := canReturn_stop hw trivial
    exact Runs.canReturn (.single (.interrupts s o)) hstop

theorem Known.canReturn (h : x.Known settings) : x.CanReturn sinks := by
  obtain ⟨s, p, o⟩ := x
  have hphase := h.phase
  have hcleaning (s : State) : CanReturn sinks ⟨s, .cleaning, none⟩ := by
    let w : World := ⟨⟨.directory [], []⟩, fun _ _ _ => .error .missing⟩
    exact ⟨_, _, .single (.refuses s s w _ rfl), rfl⟩
  cases p with
  | begun =>
    obtain ⟨rfl, -⟩ : o = none ∧ _ := hphase
    exact Runs.canReturn (.single (.cleans s)) (hcleaning _)
  | cleaning =>
    obtain ⟨rfl, -⟩ : o = none ∧ _ := hphase
    exact hcleaning s
  | calling c =>
    cases c with
    | opening p =>
      obtain ⟨-, s₀, v, hknown, -⟩ := hphase
      obtain ⟨y, r, hy, hr, -⟩ := hknown.canAdvance
      have hruns : Runs sinks ⟨s, .calling (.opening p), o⟩ ⟨y.launcher, .calling (.opening y.opening), o⟩ :=
        runs_advance o hy
      have hwatched : y.launcher.Watched := (hknown.runs (Scene.runs_of_advance hy)).2.watched
      rw [hr] at hruns
      refine hruns.canReturn ?_
      cases hfatal : fatal? r with
      | some e => exact ⟨_, _, .single (.fails _ r e o hfatal), rfl⟩
      | none => exact Runs.canReturn (.single (.waits _ r o hfatal)) (canReturn_exit hwatched)
    | exit r => exact canReturn_exit hphase.2.1
    | stop p => exact canReturn_stop hphase.2.1 hphase.2.2.2
    | shutdown p => exact hphase.2.elim
  | returned r => exact ⟨_, r, .refl, rfl⟩

/-! ### Executed runs -/

theorem runs_besides {p : Phase} (o : Option (Except LauncherError Unit)) (hp : ∀ r, p ≠ .returned r) {rs : List Read}
    (h : Besides sinks s rs t) : Runs sinks ⟨s, p, o⟩ ⟨t, p, o⟩ := by
  induction h with
  | refl => exact .refl
  | tail _ hlast ih => exact ih.tail (.beside _ _ p o _ hlast hp)

/-- A call that a session lets go on goes on so in a run. -/
theorem runs_carryOn (hold : Session → Bool) (s : Session) (c : Call) (o : Option (Except LauncherError Unit)) :
    Runs Running.captured ⟨s.launcher, .calling c, o⟩
      ⟨(s.carryOn hold c).1.launcher, .calling (s.carryOn hold c).2, o⟩ := by
  refine Session.callLoop_preserves
    (P := fun t c' => Runs Running.captured ⟨s.launcher, .calling c, o⟩ ⟨t.launcher, .calling c', o⟩) ?_ ?_ hold _ .refl
  · exact fun t c₁ l c₂ h hnext => h.tail (.goesOn t.launcher l c₁ c₂ o hnext)
  · intro t c₁ time h
    obtain ⟨rs, hbesides⟩ := t.besides_happen time
    exact h.trans (runs_besides o (by simp) hbesides)

theorem carryOn_exit (hold : Session → Bool) (s : Session) : ∃ r, (s.carryOn hold (.exit none)).2 = .exit r := by
  refine Session.callLoop_preserves (P := fun _ c => ∃ r, c = .exit r) ?_ (fun _ _ _ h => h) hold _ ⟨none, rfl⟩
  rintro s _ l c' ⟨r, rfl⟩ hnext
  rcases Call.next_cases hnext with ⟨p, p', hc, -⟩ | ⟨p, p', hc, -⟩ | ⟨p, p', hc, -⟩ | ⟨r', -, rfl, -⟩
  · cases hc
  · cases hc
  · cases hc
  · exact ⟨_, rfl⟩

theorem runs_stop {s s' : Session} {outcome : Option Outcome} (o : Option (Except LauncherError Unit))
    (h : s.stop = (s', some outcome)) :
    Runs Running.captured ⟨s.launcher, .calling (.stop .begun), o⟩
      ⟨s'.launcher, .calling (.stop (.returned outcome)), o⟩ := by
  have hruns := runs_carryOn (fun _ => false) s (.stop .begun) o
  rw [Session.stop, Session.run] at h
  generalize s.carryOn (fun _ => false) (.stop .begun) = stopped at h hruns
  obtain ⟨s₁, c⟩ := stopped
  split at h
  · rename_i heq
    obtain ⟨rfl, rfl⟩ := Prod.mk.inj heq
    obtain ⟨rfl, hr⟩ := Prod.mk.inj h
    obtain rfl := Option.some.inj hr
    exact hruns
  · cases h

theorem runs_waitForEnd {s s' : Session} {result : Except LauncherError Unit} (o : Option (Except LauncherError Unit))
    (h : waitForEnd s = (s', .returned result)) :
    Runs Running.captured ⟨s.launcher, .calling (.exit none), o⟩ ⟨s'.launcher, .returned result, o⟩ := by
  let hold : Session → Bool := fun s => !(signals s).isEmpty
  have hruns := runs_carryOn hold s (.exit none) o
  obtain ⟨r, hr⟩ := carryOn_exit hold s
  have hwait : s.carryOn hold (.exit none) = ((s.carryOn hold (.exit none)).1, .exit r) := Prod.ext rfl hr
  rw [hr] at hruns
  unfold waitForEnd at h
  rw [show (fun s => !(signals s).isEmpty) = hold from rfl, hwait] at h
  cases r with
  | some r =>
    obtain ⟨rfl, hresult⟩ := Prod.mk.inj h
    obtain rfl := Ending.returned.inj hresult
    exact hruns.tail (.closes _ r o)
  | none =>
    dsimp only at h
    split at h
    · have hinterrupted := hruns.tail (.interrupts _ o)
      split at h
      · rename_i outcome hstop
        obtain ⟨rfl, hresult⟩ := Prod.mk.inj h
        obtain rfl := Ending.returned.inj hresult
        exact (hinterrupted.trans (runs_stop o hstop)).tail (.stops _ outcome o)
      · cases h
    · cases h

/-- A run that is executed and returns is one of the runs. -/
theorem runs_run {settings : Config} {world : World} {s' : Session} {result : Except LauncherError Unit}
    (h : run (begin settings world) = (s', .returned result)) :
    (new settings).Runs Running.captured ⟨s'.launcher, .returned result, some (begin settings world).start.2⟩ := by
  let hold : Session → Bool := fun s => !(signals s).isEmpty
  have hcleaning : (new settings).Runs Running.captured ⟨(new settings).launcher.beginCleanup, .cleaning, none⟩ :=
    .single (.cleans _)
  have hserver : (new settings).launcher.beginCleanup.beginServer world =
      ((begin settings world).start.1.launcher, (begin settings world).start.2) := rfl
  unfold run at h
  generalize (begin settings world).start = started at h hserver
  obtain ⟨s₁, r | u⟩ := started
  · obtain ⟨rfl, hresult⟩ := Prod.mk.inj h
    obtain rfl := Ending.returned.inj hresult
    exact hcleaning.tail (.refuses _ _ world r hserver)
  · have hopening := (hcleaning.tail (.spawns _ _ world hserver)).trans
      (runs_carryOn hold s₁ (.opening .begun) (some (.ok ())))
    dsimp only at h
    split at h
    · rename_i s₂ r hopened
      rw [show s₁.carryOn hold (.opening .begun) = _ from hopened] at hopening
      split at h
      · rename_i e hfatal
        obtain ⟨rfl, hresult⟩ := Prod.mk.inj h
        obtain rfl := Ending.returned.inj hresult
        exact hopening.tail (.fails _ r e _ hfatal)
      · rename_i hplain
        exact (hopening.tail (.waits _ r _ hplain)).trans (runs_waitForEnd _ h)
    · cases h

/-- A run that is executed and returns has ended as every run does. -/
theorem ended_run {settings : Config} {world : World} {s' : Session} {result : Except LauncherError Unit}
    (h : run (begin settings world) = (s', .returned result)) :
    Ended s'.launcher (some (begin settings world).start.2) result :=
  ((known_new settings).runs (runs_run h)).phase

/-! ### How a run ends -/

/-- In whatever order the cleanup, the server, the time and an interruption come, and whatever the disk, the server and
the settings are: a run that returns fails if and only if the server could not be started or the cleanup has failed,
with the error of the one or the other, which says where it comes from; so it never fails because it was not started.
It leaves no server behind, and once there was one, the cleanup is over.  And every run can return. -/
theorem returns_error_iff (sinks : Sinks) (settings : Config) (hx : (new settings).Runs sinks x) :
    (∀ result, x.phase = .returned result →
      ((∃ e, result = .error e) ↔
        (∃ e, x.spawned? = some (.error e)) ∨ ∃ e, x.launcher.cleaned? = some (.error e)) ∧
      (∀ e, result = .error e →
        (x.spawned? = some (.error e) ∧ ∃ f, e = .spawn settings.server.interpreter f) ∨
        (x.spawned? = some (.ok ()) ∧ x.launcher.cleaned? = some (.error e) ∧ Cache.Failure settings.cache e)) ∧
      result ≠ .error .notStarted ∧
      ((∃ e, x.spawned? = some (.error e)) ∧ x.launcher.server = none ∨
        x.spawned? = some (.ok ()) ∧ x.launcher.ServerEnded ∧ ∃ c, x.launcher.cleaned? = some c)) ∧
    x.CanReturn sinks := by
  have hknown := (known_new settings).runs hx
  refine ⟨fun result hresult => ?_, hknown.canReturn⟩
  have hended := hknown.phase
  rw [hresult] at hended
  have hcause : ∀ e, result = .error e →
      (x.spawned? = some (.error e) ∧ ∃ f, e = .spawn settings.server.interpreter f) ∨
      (x.spawned? = some (.ok ()) ∧ x.launcher.cleaned? = some (.error e) ∧ Cache.Failure settings.cache e) := by
    rintro e rfl
    rcases hended.cause with hspawned | ⟨hspawned, hclean⟩
    · exact Or.inl ⟨hspawned, hknown.spawn e hspawned⟩
    · exact Or.inr ⟨hspawned, hclean, hknown.cleaned hclean⟩
  refine ⟨hended.error_iff, hcause, fun hnot => ?_, hended.leaves_nothing⟩
  rcases hcause _ hnot with ⟨-, f, hf⟩ | ⟨-, -, hfailure⟩
  · cases hf
  · cases hfailure

/-- A server that ends with a code before it was ready: the window shows an error, and the run succeeds. -/
theorem returns_error_iff_early_exit : ∃ x, (new {}).Runs Running.captured x ∧ x.phase = .returned (.ok ()) ∧
    x.launcher.calls.getLast? = some (.showError "Server process exited before becoming ready (code 3)") ∧
    x.launcher.ServerEnded := by
  let w : World := ⟨⟨.directory [], []⟩, fun _ _ _ => .ok ⟨[], none, 0⟩⟩
  have hcleaning : (new {}).Runs Running.captured _ := .single (.cleans _)
  have hspawned := hcleaning.tail (.spawns _ _ w rfl)
  have hcreated := hspawned.tail (.goesOn _ _ _ _ _ List.mem_cons_self)
  have hasked := hcreated.tail (.goesOn _ _ _ _ _ List.mem_cons_self)
  have hwaiting := hasked.tail (.goesOn _ _ _ _ _ List.mem_cons_self)
  have hended := hwaiting.tail (.beside _ _ _ _ _ (.server _ _
    [.event (.childEnds (.code 3)), .event .watcherReaps, .event .watcherRecords, .event .watcherPublishes] rfl
    (by simp [Happening.KeepsHandle, Happening.KeepsBackground]) (Running.continues_afterAll _ _ _)) (by simp))
  have hjudged := hended.tail (.goesOn _ _ _ _ _ List.mem_cons_self)
  have hcleaned := hjudged.tail (.beside _ _ _ _ _ (.cleanup _ _ rfl rfl (.cleared (fun _ s => .ok s) (.ok []) ()))
    (by simp))
  have hjoined := hcleaned.tail (.goesOn _ _ _ _ _ List.mem_cons_self)
  have hshown := hjoined.tail (.goesOn _ _ _ _ _ List.mem_cons_self)
  have hgoing := hshown.tail (.waits _ _ _ rfl)
  have hexited := hgoing.tail (.goesOn _ _ _ _ _ List.mem_cons_self)
  have hreturned := hexited.tail (.closes _ _ _)
  obtain ⟨hall, -⟩ := returns_error_iff Running.captured {} hreturned
  obtain ⟨-, -, -, hleft⟩ := hall _ rfl
  exact ⟨_, hreturned, rfl, rfl, (hleft.resolve_left (by simp)).2.1⟩

end Course

end AppLauncher.Headless
