import AppLauncher.Launcher.Call
import AppLauncher.Proofs.Cache.Clear
import AppLauncher.Proofs.Launcher.Opening
import AppLauncher.Proofs.Server.Advance

/-!
# A launcher in use

Calls are made on a launcher in any number and go on side by side, beside its cleanup, its server and the time
(`Usage`).  A call may be given up before it has returned.  A start needs the launcher for itself and comes once at
most.  What a step of a call does to the launcher is said once (`Call.uses`), and so is what any step but a start keeps
(`State.Keeps`).
-/

namespace AppLauncher.Launcher

open AppLauncher.Output AppLauncher.Server

/-! ### What goes on beside the calls -/

/-- What can become of a cleanup that is still to run. -/
inductive Stage.Possible (settings : CacheSettings) : Stage → Prop
  | cleared {σ : Type} (remove : String → σ → Except Fault σ) (listing : Except Fault (List (Except Fault String)))
      (s : σ) : Possible settings (.finished (Cache.clearListed settings remove listing s).result)
  | failed (reason : String) : Possible settings (.finished (.error (.taskFailed reason)))
  | cancelled : Possible settings .cancelled

/-- What goes on beside calls, and what is read of the server's standard output meanwhile: the cleanup comes to what is
possible, and the server goes on by a history. -/
inductive Beside (sinks : Sinks) (s : State) : List Read → State → Prop
  | time (clock : Nat) (accepting : Option Nat) (hclock : s.clock ≤ clock) :
      Beside sinks s [] { s with clock, accepting }
  | log (lines : List Log.Line) : Beside sinks s [] (s.say lines)
  | cleanup (k : Cleanup) (stage : Stage) (hk : s.cleanup = some k) (hpending : k.result? = none)
      (hstage : stage.Possible s.config.cache) : Beside sinks s [] { s with cleanup := some { k with stage } }
  | server (r r' : Running) (hs : List Happening) (hr : s.server = some r)
      (hks : ∀ h ∈ hs, h.KeepsHandle ∧ h.KeepsBackground) (h : Running.Continues sinks hs r r') :
      Beside sinks s (Happening.reads .stdout hs) { s with server := some r' }

theorem Beside.background {sinks : Sinks} {s t : State} {rs : List Read} (h : Beside sinks s rs t) :
    Background s t := by
  cases h with
  | time clock accepting hclock => exact .time clock accepting hclock
  | log lines => exact .log lines
  | cleanup k stage hk hpending hstage => exact .cleanup k stage hk hpending
  | server r r' hs hr hks h => exact .server r r' hr (h.goesOn hks)

/-- A cleanup that has failed had failed before, or fails in one of the ways that are possible. -/
theorem Beside.failure_cases {sinks : Sinks} {s t : State} {rs : List Read} (h : Beside sinks s rs t) {k : Cleanup}
    {e : LauncherError} (hk : t.cleanup = some k) (he : k.result? = some (.error e)) :
    s.cleanup = some k ∨ Cache.Failure s.config.cache e := by
  cases h with
  | cleanup k' stage hk' hpending hstage =>
    obtain rfl := Option.some.inj hk
    right
    cases hstage with
    | cleared remove listing state => exact Cache.failure_of_clearListed (Option.some.inj he)
    | failed reason =>
      obtain rfl := Except.error.inj (Option.some.inj he)
      exact .lost reason
    | cancelled =>
      obtain rfl := Except.error.inj (Option.some.inj he)
      exact .lost _
  | _ => exact Or.inl hk

theorem Beside.stdout {sinks : Sinks} {s t : State} {rs : List Read} (h : Beside sinks s rs t) :
    (t.server = none → rs = []) ∧ ∀ r', t.server = some r' →
      ∃ r, s.server = some r ∧ r'.stdout = rs.foldl (Forwarding.step (sinks .stdout)) r.stdout := by
  cases h with
  | server r r' hs hr hks h =>
    refine ⟨by simp, fun r₁ hr₁ => ?_⟩
    obtain rfl := Option.some.inj hr₁
    exact ⟨r, hr, h.forwarding_eq .stdout⟩
  | _ => exact ⟨fun _ => rfl, fun r hr => ⟨r, hr, rfl⟩⟩

/-- What unblocks a call can happen beside it. -/
theorem Unblocks.beside {s t : State} (sinks : Sinks) (h : Unblocks s t) : ∃ rs, Beside sinks s rs t := by
  cases h with
  | time clock hclock => exact ⟨_, .time clock s.accepting hclock⟩
  | cleanup k hk hpending => exact ⟨_, .cleanup k .cancelled hk hpending .cancelled⟩
  | watcher r hr =>
    let es : List Server.Event := [.watcherKills, .watcherReaps, .watcherRecords, .watcherPublishes]
    have hes : ∀ e ∈ es, e ≠ .handleDropped ∧ e ≠ .backgroundDropped := by simp [es]
    exact ⟨_, .server r _ (es.map .event) hr (Running.keeps_map_event hes)
      (Running.continues_of_events sinks es rfl rfl rfl rfl)⟩

inductive Besides (sinks : Sinks) (s : State) : List Read → State → Prop
  | refl : Besides sinks s [] s
  | tail {rs rs' : List Read} {t u : State} (h : Besides sinks s rs t) (hlast : Beside sinks t rs' u) :
      Besides sinks s (rs ++ rs') u

theorem Besides.single {sinks : Sinks} {s t : State} {rs : List Read} (h : Beside sinks s rs t) :
    Besides sinks s rs t := Besides.refl.tail h

theorem Besides.background {sinks : Sinks} {s t : State} {rs : List Read} (h : Besides sinks s rs t) :
    Relation.ReflTransGen Background s t := by
  induction h with
  | refl => exact .refl
  | tail _ hlast ih => exact ih.tail hlast.background

/-! ### Usage -/

def State.stops (s : State) : Nat := (s.server.map (·.supervision.stops)).getD 0

/-- A call that was made, and whether it has asked the server to stop. -/
structure Doing where
  call : Call
  asks : Bool := false

/-- A launcher in use: the calls that were made and not given up, whether it was started and has a server then, and
what was read of the server's standard output. -/
structure Usage where
  launcher : State
  calls : List Doing := []
  begun : Bool := false
  spawned : Bool := false
  printed : List Read := []

/-- A call that has not done anything yet. -/
inductive Call.Fresh : Call → Prop
  | stop : Fresh (.stop .begun)
  | shutdown : Fresh (.shutdown .begun)
  | opening : Fresh (.opening .begun)
  | exit : Fresh (.exit none)

namespace Usage

def new (config : Config) (window : Window.Host) : Usage := { launcher := { config, window } }

/-- What can come next; the hosts that the window ever has satisfy `W`. -/
inductive Step (sinks : Sinks) (W : Window.Host → Prop) (x : Usage) : Usage → Prop
  /-- A start, with nobody else using the launcher. -/
  | start (w : World) (hbegun : x.begun = false) (hcalls : x.calls = []) :
      Step sinks W x { x with
        launcher := (x.launcher.start w).1
        begun := true
        spawned := (x.launcher.start w).2.isOk }
  | make (c : Call) (hc : c.Fresh) : Step sinks W x { x with calls := x.calls ++ [{ call := c }] }
  | goOn (i : Nat) (d : Doing) (s : State) (c : Call) (hd : x.calls[i]? = some d)
      (hnext : (s, c) ∈ d.call.next x.launcher) :
      Step sinks W x { x with
        launcher := s
        calls := x.calls.set i ⟨c, d.asks || decide (s.stops ≠ x.launcher.stops)⟩ }
  /-- A call is done with, or given up before it has returned. -/
  | leave (i : Nat) : Step sinks W x { x with calls := x.calls.eraseIdx i }
  /-- Something goes on beside the calls. -/
  | beside (rs : List Read) (s : State) (h : Beside sinks x.launcher rs s) :
      Step sinks W x { x with launcher := s, printed := x.printed ++ rs }
  /-- The window's host answers otherwise from now on. -/
  | change (window : Window.Host) (hwindow : W window) :
      Step sinks W x { x with launcher := { x.launcher with window } }

def Runs (sinks : Sinks) (W : Window.Host → Prop) : Usage → Usage → Prop := Relation.ReflTransGen (Step sinks W)

end Usage

theorem Besides.runs {sinks : Sinks} {W : Window.Host → Prop} {x : Usage} {rs : List Read} {t : State}
    (h : Besides sinks x.launcher rs t) : x.Runs sinks W { x with launcher := t, printed := x.printed ++ rs } := by
  induction h with
  | refl =>
    rw [List.append_nil]
    exact .refl
  | @tail rs rs' t u _ hlast ih =>
    have hstep : Usage.Step sinks W { x with launcher := t, printed := x.printed ++ rs }
        { x with launcher := u, printed := x.printed ++ rs ++ rs' } := .beside rs' u hlast
    rw [← List.append_assoc]
    exact ih.tail hstep

/-! ### What a call makes of a launcher -/

variable {s t : State}

/-- A step of a call changes neither settings nor window nor the cleanup, and of the server only that it is asked to
stop. -/
structure Uses (s t : State) : Prop where
  config : t.config = s.config
  window : t.window = s.window
  cleanup : t.cleanup = s.cleanup
  server : t.server = s.server ∨ ∃ r, s.server = some r ∧ t.server = some r.askStop.1

theorem Uses.refl (s : State) : Uses s s := ⟨rfl, rfl, rfl, Or.inl rfl⟩

theorem Uses.stdout (h : Uses s t) {r' : Running} (hr' : t.server = some r') :
    ∃ r, s.server = some r ∧ r'.stdout = r.stdout := by
  rcases h.server with hserver | ⟨r, hr, hasked⟩
  · exact ⟨r', hserver ▸ hr', rfl⟩
  · rw [hasked] at hr'
    obtain rfl := Option.some.inj hr'
    exact ⟨r, hr, rfl⟩

theorem Stop.uses {p p' : Stop} (h : p.next? s = some (t, p')) : Uses s t ∧ t.calls = s.calls := by
  rcases next?_cases h with ⟨-, -, rfl, -⟩ | ⟨r, lines, -, hr, rfl, -⟩ | ⟨r, o, -, -, -, rfl, -⟩
  · exact ⟨.refl t, rfl⟩
  · exact ⟨⟨rfl, rfl, rfl, Or.inr ⟨r, hr, rfl⟩⟩, rfl⟩
  · exact ⟨.refl t, rfl⟩

theorem Join.uses {j j' : Join} (h : j.next? s = some (t, j')) :
    Uses s t ∧ t.calls = s.calls ∧ t.server = s.server := by
  rcases next?_cases h with ⟨-, -, rfl, -⟩ | ⟨-, -, rfl, -⟩ | ⟨k, r, -, -, -, rfl, -⟩
  · exact ⟨⟨rfl, rfl, rfl, Or.inl rfl⟩, rfl, rfl⟩
  · exact ⟨.refl t, rfl, rfl⟩
  · exact ⟨.refl t, rfl, rfl⟩

theorem Shutdown.uses {p p' : Shutdown} (h : p.next? s = some (t, p')) : Uses s t ∧ t.calls = s.calls := by
  rcases next?_cases h with ⟨o, lines, -, rfl, -⟩ | ⟨q, q', -, hq, -⟩ | ⟨r, lines, -, rfl, -⟩ | ⟨j, j', -, hj, -⟩
  · exact ⟨⟨rfl, rfl, rfl, Or.inl rfl⟩, rfl⟩
  · exact Stop.uses hq
  · exact ⟨⟨rfl, rfl, rfl, Or.inl rfl⟩, rfl⟩
  · exact ⟨(Join.uses hj).1, (Join.uses hj).2.1⟩

namespace Opening

variable {o o' : Opening}

/-- The call stops the server only where the window could not be created or the cleanup has failed. -/
def Spares : Opening → Prop
  | givingUp _ _ => False
  | stopping _ _ => False
  | _ => True

theorem uses_finish (s : State) (v : Verdict) : Uses s (finish s v).1 ∧ (finish s v).1.server = s.server := by
  cases v with
  | ok u => exact ⟨⟨rfl, rfl, rfl, Or.inl rfl⟩, rfl⟩
  | error e => exact ⟨⟨rfl, rfl, rfl, Or.inl rfl⟩, rfl⟩

theorem Move.uses (h : Move s o t o') : Uses s t ∧ (o.Spares → t.server = s.server) := by
  cases h with
  | shutsDown reason p p' t h => exact ⟨(Shutdown.uses h).1, False.elim⟩
  | joinsFirst j j' t h => exact ⟨(Join.uses h).1, fun _ => (Join.uses h).2.2⟩
  | joins since v j j' t h => exact ⟨(Join.uses h).1, fun _ => (Join.uses h).2.2⟩
  | finishes since v r => exact ⟨(uses_finish s v).1, fun _ => (uses_finish s v).2⟩
  | stops e p p' t h => exact ⟨(Stop.uses h).1, False.elim⟩
  | _ => exact ⟨⟨rfl, rfl, rfl, Or.inl rfl⟩, fun _ => rfl⟩

end Opening

theorem Call.next_cases {c c' : Call} (h : (t, c') ∈ c.next s) :
    (∃ p p', c = .stop p ∧ c' = .stop p' ∧ p.next? s = some (t, p')) ∨
    (∃ p p', c = .shutdown p ∧ c' = .shutdown p' ∧ p.next? s = some (t, p')) ∨
    (∃ o o', c = .opening o ∧ c' = .opening o' ∧ Opening.Move s o t o') ∨
    (∃ r, c = .exit none ∧ c' = .exit (some r) ∧ t = s) := by
  cases c with
  | stop p =>
    simp only [next, Option.mem_toList, Option.map_eq_some_iff, Prod.mk.injEq] at h
    obtain ⟨⟨t', p'⟩, hp, rfl, rfl⟩ := h
    exact Or.inl ⟨p, p', rfl, rfl, hp⟩
  | shutdown p =>
    simp only [next, Option.mem_toList, Option.map_eq_some_iff, Prod.mk.injEq] at h
    obtain ⟨⟨t', p'⟩, hp, rfl, rfl⟩ := h
    exact Or.inr (Or.inl ⟨p, p', rfl, rfl, hp⟩)
  | opening o =>
    simp only [next, List.mem_map, Prod.mk.injEq] at h
    obtain ⟨⟨t', o'⟩, ho, rfl, rfl⟩ := h
    exact Or.inr (Or.inr (Or.inl ⟨o, o', rfl, rfl, Opening.move_of_mem_next ho⟩))
  | exit r =>
    cases r with
    | some r => cases h
    | none =>
      refine Or.inr (Or.inr (Or.inr ?_))
      cases hr : s.server with
      | none =>
        simp only [next, hr, List.mem_singleton, Prod.mk.injEq] at h
        exact ⟨_, rfl, h.2, h.1⟩
      | some r =>
        simp only [next, hr, Option.mem_toList, Option.map_eq_some_iff, Prod.mk.injEq] at h
        obtain ⟨o, -, rfl, rfl⟩ := h
        exact ⟨_, rfl, rfl, rfl⟩

theorem Call.uses {c c' : Call} (h : (t, c') ∈ c.next s) : Uses s t := by
  rcases next_cases h with ⟨p, p', -, -, hp⟩ | ⟨p, p', -, -, hp⟩ | ⟨o, o', -, -, ho⟩ | ⟨r, -, -, rfl⟩
  · exact (Stop.uses hp).1
  · exact (Shutdown.uses hp).1
  · exact ho.uses.1
  · exact .refl _

/-! ### What a start makes of a launcher -/

namespace State

/-- Settings, window and what was asked of it are the same, and a cleanup that was begun is still to run. -/
structure Starts (s t : State) : Prop where
  config : t.config = s.config
  window : t.window = s.window
  calls : t.calls = s.calls
  cleanup : t.cleanup = s.cleanup ∨ ∃ n, t.cleanup = some ⟨n, .pending⟩

theorem starts_start (s : State) (w : World) : s.Starts (s.start w).1 := by
  have hbegin : s.Starts s.beginCleanup := by
    rcases s.beginCleanup_cases with h | ⟨n, lines, h⟩
    · rw [h]
      exact ⟨rfl, rfl, rfl, Or.inl rfl⟩
    · rw [h]
      exact ⟨rfl, rfl, rfl, Or.inr ⟨n, rfl⟩⟩
  rcases s.beginCleanup.beginServer_cases w with ⟨e, h⟩ | ⟨pid, b, lines, h⟩
  · rw [start, h]
    exact hbegin
  · rw [start, h]
    exact ⟨hbegin.config, hbegin.window, hbegin.calls, hbegin.cleanup⟩

/-- A start that fails leaves the server as it is, and one that succeeds has a fresh one. -/
theorem start_cases (s : State) (w : World) :
    ((s.start w).2.isOk = false ∧ (s.start w).1.server = s.server) ∨
    ((s.start w).2.isOk = true ∧ ∃ clock pid b,
      (s.start w).1.server = some (.start clock pid b s.config.readiness.watchedLine)) := by
  have hconfig : s.beginCleanup.config = s.config := by
    rcases s.beginCleanup_cases with h | ⟨n, lines, h⟩ <;> rw [h]
  rcases s.beginCleanup.beginServer_cases w with ⟨e, h⟩ | ⟨pid, b, lines, h⟩
  · rw [start, h]
    exact Or.inl ⟨rfl, s.server_beginCleanup⟩
  · rw [start, h, hconfig]
    exact Or.inr ⟨rfl, _, pid, b, rfl⟩

end State

/-! ### What all steps but a start keep -/

/-- The settings are the same, and the server has only gone on. -/
structure State.Keeps (s t : State) : Prop where
  config : t.config = s.config
  hasServer : t.server.isSome = s.server.isSome
  server : ∀ r', t.server = some r' → ∃ r, s.server = some r ∧ r.GoesOn r'

theorem State.Keeps.server_eq_none (h : s.Keeps t) (ht : t.server = none) : s.server = none := by
  have hsome := h.hasServer
  rwa [ht, Option.isSome_none, eq_comm, Option.isSome_eq_false_iff, Option.isNone_iff_eq_none] at hsome

theorem State.Keeps.of_server_eq (hconfig : t.config = s.config) (hserver : t.server = s.server) : s.Keeps t where
  config := hconfig
  hasServer := by rw [hserver]
  server r' hr' := ⟨r', hserver ▸ hr', .refl r'⟩

theorem Uses.keeps (h : Uses s t) : s.Keeps t where
  config := h.config
  hasServer := by
    rcases h.server with hserver | ⟨r, hr, hasked⟩
    · rw [hserver]
    · rw [hr, hasked]
      rfl
  server r' hr' := by
    rcases h.server with hserver | ⟨r, hr, hasked⟩
    · exact ⟨r', hserver ▸ hr', .refl r'⟩
    · rw [hasked] at hr'
      obtain rfl := Option.some.inj hr'
      exact ⟨r, hr, r.goesOn_askStop⟩

theorem Background.keeps (h : Background s t) : s.Keeps t := by
  cases h with
  | server r r₁ hr h =>
    refine ⟨rfl, by simp [hr], fun r' hr' => ?_⟩
    obtain rfl := Option.some.inj hr'
    exact ⟨r, hr, h⟩
  | _ => exact .of_server_eq rfl rfl

/-! ### When there is a server -/

namespace Usage

variable {sinks : Sinks} {W : Window.Host → Prop} {x y : Usage}

/-- There is a server once a start has succeeded, and none before. -/
structure Spawns (x : Usage) : Prop where
  spawned : x.spawned = x.launcher.server.isSome
  begun : x.begun = false → x.spawned = false

theorem spawns_new (config : Config) (window : Window.Host) : (new config window).Spawns := ⟨rfl, fun _ => rfl⟩

theorem Spawns.server_eq_none (h : x.Spawns) (hbegun : x.begun = false) : x.launcher.server = none := by
  have hspawned := h.spawned
  rwa [h.begun hbegun, eq_comm, Option.isSome_eq_false_iff, Option.isNone_iff_eq_none] at hspawned

theorem Spawns.step (h : x.Spawns) (hxy : Step sinks W x y) : y.Spawns := by
  cases hxy with
  | start w hbegun hcalls =>
    refine ⟨?_, by simp⟩
    rcases x.launcher.start_cases w with ⟨hok, hserver⟩ | ⟨hok, clock, pid, b, hserver⟩
    · rw [hok, hserver, h.server_eq_none hbegun]
      rfl
    · rw [hok, hserver]
      rfl
  | make c hc => exact ⟨h.spawned, h.begun⟩
  | goOn i d s c hd hnext => exact ⟨h.spawned.trans (Call.uses hnext).keeps.hasServer.symm, h.begun⟩
  | leave i => exact ⟨h.spawned, h.begun⟩
  | beside rs s hbeside => exact ⟨h.spawned.trans hbeside.background.keeps.hasServer.symm, h.begun⟩
  | change window hwindow => exact ⟨h.spawned, h.begun⟩

/-- What every step preserves, given what is known of servers, is preserved by a run. -/
theorem Runs.preserves {P : Usage → Prop} (hstep : ∀ x y, x.Spawns → P x → Step sinks W x y → P y)
    (hxy : x.Runs sinks W y) (hspawns : x.Spawns) (hx : P x) : y.Spawns ∧ P y := by
  induction hxy with
  | refl => exact ⟨hspawns, hx⟩
  | tail _ hlast ih => exact ⟨ih.1.step hlast, hstep _ _ ih.1 ih.2 hlast⟩

end Usage

end AppLauncher.Launcher
