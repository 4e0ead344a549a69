import AppLauncher.Proofs.Launcher.Usage
import AppLauncher.Proofs.Server.Readiness

/-!
# No server is left behind

However a launcher is used: a call that stops the server, and one that opens the window and ends with an error that
ends the launcher, returns only once there is no server that goes on.  An error that leaves the window up comes without
any request to stop the server by that call (`settled`).
-/

namespace AppLauncher.Launcher

open AppLauncher.Output AppLauncher.Server

/-- A host whose window, once it is there, fails only with errors of a window. -/
structure FailsPlainly (h : Window.Host) : Prop where
  loadUrl : ∀ url e, h.onLoadUrl url = some e → ∃ reason, e = .window reason
  showError : ∀ text e, h.onShowError text = some e → ∃ reason, e = .window reason

theorem failsPlainly_headless : FailsPlainly Window.headless where
  loadUrl _ _ h := by cases h
  showError _ _ h := by cases h

variable {s t : State}

namespace State

/-- The server that is there is watched. -/
def Guarded (s : State) : Prop := ∀ r, s.server = some r → r.Watched

/-- The server that is there has ended. -/
def Quiet (s : State) : Prop := ∀ r, s.server = some r → r.HasEnded

/-- A cleanup that has failed ends the launcher. -/
def CleansFatally (s : State) : Prop :=
  ∀ k e, s.cleanup = some k → k.result? = some (.error e) → e.isFatal = true

theorem Keeps.guarded (h : s.Keeps t) (hs : s.Guarded) : t.Guarded := by
  intro r' hr'
  obtain ⟨r, hr, hgo⟩ := h.server r' hr'
  exact hgo.watched (hs r hr)

theorem Keeps.quiet (h : s.Keeps t) (hs : s.Guarded) (hq : s.Quiet) : t.Quiet := by
  intro r' hr'
  obtain ⟨r, hr, hgo⟩ := h.server r' hr'
  exact hgo.hasEnded (hs r hr) (hq r hr)

theorem guarded_start (hs : s.Guarded) (w : World) : (s.start w).1.Guarded := by
  rcases s.start_cases w with ⟨-, h⟩ | ⟨-, clock, pid, b, h⟩
  · rw [Guarded, h]
    exact hs
  · rw [Guarded, h]
    intro r hr
    obtain rfl := Option.some.inj hr
    exact Running.watched_start clock pid b _

theorem cleansFatally_start (hs : s.CleansFatally) (w : World) : (s.start w).1.CleansFatally := by
  rcases (s.starts_start w).cleanup with h | ⟨n, h⟩
  · rw [CleansFatally, h]
    exact hs
  · rw [CleansFatally, h]
    intro k e hk hresult
    obtain rfl := Option.some.inj hk
    cases hresult

end State

theorem Beside.cleansFatally {sinks : Sinks} {rs : List Read} (h : Beside sinks s rs t) (hs : s.CleansFatally) :
    t.CleansFatally := by
  intro k e hk he
  rcases h.failure_cases hk he with hbefore | hfailure
  · exact hs k e hbefore he
  · exact hfailure.isFatal

/-! ### What is safe at each point of a call -/

/-- A stop that has returned leaves nothing that goes on. -/
def Stop.Safe (s : State) : Stop → Prop
  | returned _ => s.Quiet
  | _ => True

/-- A join fails only with what ends the launcher. -/
def Join.Safe : Join → Prop
  | returned (.error e) => e.isFatal = true
  | _ => True

/-- A shutdown that has stopped the server leaves nothing that goes on. -/
def Shutdown.Safe (s : State) : Shutdown → Prop
  | stopping p => p.Safe s
  | joining _ => s.Quiet
  | returned _ => s.Quiet

namespace Opening

/-- What ends the launcher, and only that, has stopped the server. -/
def Safe (s : State) : Opening → Prop
  | begun => True
  | givingUp _ p => p.Safe s
  | created j => j.Safe
  | waiting _ j v => j.Safe ∧ ∀ e, v = some (.error e) → e.isFatal = false
  | stopping e p => e.isFatal = true ∧ p.Safe s
  | returned r => ∀ e, r = .error e → e.isFatal = true → s.Quiet

/-- The call ends the launcher, or it has done so. -/
def Ends : Opening → Prop
  | givingUp _ _ => True
  | stopping _ _ => True
  | returned (.error e) => e.isFatal = true
  | _ => False

end Opening

/-- What is safe at each point of a call that was made; opening the window asks the server to stop only if it ends the
launcher. -/
def Doing.Safe (s : State) (d : Doing) : Prop :=
  match d.call with
  | .stop p => p.Safe s
  | .shutdown p => p.Safe s
  | .opening o => o.Safe s ∧ (d.asks = true → o.Ends)
  | .exit _ => True

/-! ### What others do -/

theorem Stop.Safe.keeps {p : Stop} (h : p.Safe s) (hs : s.Guarded) (hst : s.Keeps t) : p.Safe t := by
  cases p with
  | returned o => exact hst.quiet hs h
  | _ => trivial

theorem Shutdown.Safe.keeps {p : Shutdown} (h : p.Safe s) (hs : s.Guarded) (hst : s.Keeps t) : p.Safe t := by
  cases p with
  | stopping q => exact Stop.Safe.keeps h hs hst
  | joining j => exact hst.quiet hs h
  | returned r => exact hst.quiet hs h

theorem Opening.Safe.keeps {o : Opening} (h : o.Safe s) (hs : s.Guarded) (hst : s.Keeps t) : o.Safe t := by
  cases o with
  | givingUp reason p => exact Shutdown.Safe.keeps h hs hst
  | stopping e p => exact ⟨h.1, h.2.keeps hs hst⟩
  | returned r => exact fun e he hfatal => hst.quiet hs (h e he hfatal)
  | _ => exact h

theorem Doing.Safe.keeps {d : Doing} (h : d.Safe s) (hs : s.Guarded) (hst : s.Keeps t) : d.Safe t := by
  obtain ⟨c, asks⟩ := d
  cases c with
  | stop p => exact Stop.Safe.keeps h hs hst
  | shutdown p => exact Shutdown.Safe.keeps h hs hst
  | opening o => exact ⟨h.1.keeps hs hst, h.2⟩
  | exit r => trivial

/-! ### The steps of a call -/

theorem Stop.safe_next? {p p' : Stop} (hs : s.Guarded) (h : p.next? s = some (t, p')) : p'.Safe t := by
  rcases next?_cases h with ⟨-, hnone, rfl, rfl⟩ | ⟨r, lines, -, -, -, rfl⟩ | ⟨r, o, -, hr, ho, rfl, rfl⟩
  · intro r hr
    simp [hnone] at hr
  · trivial
  · intro r' hr'
    obtain rfl : r' = r := by simpa [hr] using hr'.symm
    have hsound := (hs r' hr).1
    rw [Running.awaited?, hsound.awaited?_eq] at ho
    exact ⟨o, ho, hsound.hasLeft_of_exit ho⟩

theorem Join.safe_next? {j j' : Join} (hs : s.CleansFatally) (h : j.next? s = some (t, j')) : j'.Safe := by
  rcases next?_cases h with ⟨-, -, -, rfl⟩ | ⟨-, -, -, rfl⟩ | ⟨k, r, -, hk, hr, -, rfl⟩
  · trivial
  · trivial
  · cases r with
    | ok report => trivial
    | error e => exact hs k e hk hr

theorem Shutdown.Safe.next? {p p' : Shutdown} (hp : p.Safe s) (hs : s.Guarded) (h : p.next? s = some (t, p')) :
    p'.Safe t := by
  have hkeeps := (Shutdown.uses h).1.keeps
  rcases next?_cases h with ⟨o, lines, rfl, -, rfl⟩ | ⟨q, q', rfl, hq, rfl⟩ | ⟨r, lines, rfl, -, rfl⟩ |
    ⟨j, j', rfl, -, rfl⟩
  · exact hkeeps.quiet hs hp
  · exact Stop.safe_next? hs hq
  · exact hkeeps.quiet hs hp
  · exact hkeeps.quiet hs hp

namespace Opening

variable {o o' : Opening}

/-- What a wait for readiness reports leaves the window up. -/
theorem isFatal_of_mem_verdicts {p : Probe} {m : Moment} {e : LauncherError} (h : .error e ∈ verdicts p m) :
    e.isFatal = false := by
  rcases Moment.error_of_mem_verdicts h with ⟨o, rfl⟩ | ⟨t, rfl⟩ | rfl <;> rfl

/-- And so does what a window fails with. -/
theorem safe_finish {v : Verdict} (hwindow : FailsPlainly s.window) (hv : ∀ e, v = .error e → e.isFatal = false) :
    ∃ r, (finish s v).2 = returned r ∧ ∀ e, r = .error e → e.isFatal = false := by
  cases v with
  | ok u =>
    let loading := s.say [Log.info ("Loading URL: " ++ s.url)]
    cases hanswer : s.window.onLoadUrl s.url with
    | none =>
      have hfailure : (loading.ask (.loadUrl s.url)).2 = none := hanswer
      refine ⟨.ok s.url, ?_, by simp⟩
      simp only [finish, loading, hfailure]
      rfl
    | some e =>
      have hfailure : (loading.ask (.loadUrl s.url)).2 = some e := hanswer
      obtain ⟨reason, rfl⟩ := hwindow.loadUrl _ _ hanswer
      refine ⟨.error (.window reason), ?_, fun e he => ?_⟩
      · simp only [finish, loading, hfailure]
      · obtain rfl := Except.error.inj he
        rfl
  | error e =>
    refine ⟨.error ((s.window.onShowError e.message).getD e), rfl, fun e' he' => ?_⟩
    obtain rfl := Except.error.inj he'
    cases hanswer : s.window.onShowError e.message with
    | none => exact hv e rfl
    | some e' =>
      obtain ⟨reason, rfl⟩ := hwindow.showError _ _ hanswer
      rfl

theorem Move.safe (h : Move s o t o') (hwindow : FailsPlainly s.window) (hs : s.Guarded) (hclean : s.CleansFatally)
    (ho : o.Safe s) : o'.Safe t := by
  cases h with
  | creates h => trivial
  | fails e lines h => trivial
  | shutsDown reason p p' t h => exact Shutdown.Safe.next? ho hs h
  | givesUp reason r => exact fun _ _ _ => ho
  | joinsFirst j j' t h => exact Join.safe_next? hclean h
  | waits j lines hj => exact ⟨ho, by simp⟩
  | breaksOff e lines => exact ⟨ho, trivial⟩
  | joins since v j j' t h => exact ⟨Join.safe_next? hclean h, ho.2⟩
  | judges since v j lines hj h =>
    refine ⟨ho.1, ?_⟩
    rintro e he
    obtain rfl := Option.some.inj he
    exact isFatal_of_mem_verdicts h
  | breaksOffWait since v e lines => exact ⟨ho.1, trivial⟩
  | finishes since v r =>
    -- the end of the wait does not stop the server, so that it must not fail with what ends the launcher
    obtain ⟨result, hresult, hplain⟩ := safe_finish hwindow fun e he => ho.2 e (he ▸ rfl)
    rw [hresult]
    intro e he hfatal
    exact absurd hfatal (by simp [hplain e he])
  | stops e p p' t h => exact ⟨ho.1, Stop.safe_next? hs h⟩
  | stopped e outcome => exact fun _ _ _ => ho.2

theorem Move.ends (h : Move s o t o') (ho : o.Safe s) (hspares : ¬ o.Spares) : o'.Ends := by
  cases h with
  | shutsDown reason p p' t h => trivial
  | givesUp reason r => rfl
  | stops e p p' t h => trivial
  | stopped e outcome => exact ho.1
  | _ => exact absurd trivial hspares

theorem Move.not_ends (h : Move s o t o') (hspares : o.Spares) : ¬ o.Ends := by
  cases h <;> first | exact id | exact hspares.elim

end Opening

theorem Doing.Safe.next {d : Doing} {c : Call} (hd : d.Safe s) (hwindow : FailsPlainly s.window) (hs : s.Guarded)
    (hclean : s.CleansFatally) (h : (t, c) ∈ d.call.next s) :
    Doing.Safe t ⟨c, d.asks || decide (t.stops ≠ s.stops)⟩ := by
  obtain ⟨call, asks⟩ := d
  rcases Call.next_cases h with ⟨p, p', rfl, rfl, hp⟩ | ⟨p, p', rfl, rfl, hp⟩ | ⟨o, o', rfl, rfl, ho⟩ |
    ⟨r, rfl, rfl, rfl⟩
  · exact Stop.safe_next? hs hp
  · exact Shutdown.Safe.next? hd hs hp
  · obtain ⟨hsafe, hasks⟩ := hd
    refine ⟨ho.safe hwindow hs hclean hsafe, fun hasked => ?_⟩
    by_cases hspares : o.Spares
    · -- the server is the same, so the call asks only if it has asked before, which it has not
      have hstops : t.stops = s.stops := by rw [State.stops, ho.uses.2 hspares, State.stops]
      have hbefore : asks = true := by simpa [hstops] using hasked
      exact absurd (hasks hbefore) (ho.not_ends hspares)
    · exact ho.ends hsafe hspares
  · trivial

/-! ### Whole runs -/

namespace Usage

variable {sinks : Sinks} {x y : Usage}

structure Safe (x : Usage) : Prop where
  window : FailsPlainly x.launcher.window
  guarded : x.launcher.Guarded
  cleans : x.launcher.CleansFatally
  calls : ∀ d ∈ x.calls, d.Safe x.launcher

theorem safe_new (config : Config) {window : Window.Host} (hwindow : FailsPlainly window) :
    (new config window).Safe where
  window := hwindow
  guarded := by simp [State.Guarded, new]
  cleans := by simp [State.CleansFatally, new]
  calls := by simp [new]

theorem Safe.step (h : x.Safe) (hxy : Step sinks FailsPlainly x y) : y.Safe := by
  -- all steps but a start let the server go on, and leave the calls that make no step as they are
  have hothers {s : State} (hst : x.launcher.Keeps s) : ∀ d ∈ x.calls, d.Safe s :=
    fun d hd => (h.calls d hd).keeps h.guarded hst
  cases hxy with
  | start w hbegun hcalls =>
    refine ⟨?_, State.guarded_start h.guarded w, State.cleansFatally_start h.cleans w, by simp [hcalls]⟩
    rw [(x.launcher.starts_start w).window]
    exact h.window
  | make c hc =>
    refine ⟨h.window, h.guarded, h.cleans, fun d hd => ?_⟩
    rcases List.mem_append.1 hd with hd | hd
    · exact h.calls d hd
    · obtain rfl := List.mem_singleton.1 hd
      cases hc with
      | opening => exact ⟨trivial, by simp⟩
      | _ => trivial
  | goOn i d s c hd hnext =>
    have huses := Call.uses hnext
    have hkeeps := huses.keeps
    refine ⟨huses.window ▸ h.window, hkeeps.guarded h.guarded, ?_, fun d' hd' => ?_⟩
    · rw [State.CleansFatally, huses.cleanup]
      exact h.cleans
    · rcases List.mem_or_eq_of_mem_set hd' with hd' | rfl
      · exact hothers hkeeps d' hd'
      · exact (h.calls d (List.mem_of_getElem? hd)).next h.window h.guarded h.cleans hnext
  | leave i =>
    exact ⟨h.window, h.guarded, h.cleans, fun d hd => h.calls d (List.mem_of_mem_eraseIdx hd)⟩
  | beside rs s hbeside =>
    have hkeeps := hbeside.background.keeps
    exact ⟨hbeside.background.carries.window ▸ h.window, hkeeps.guarded h.guarded, hbeside.cleansFatally h.cleans,
      hothers hkeeps⟩
  | change window hwindow =>
    exact ⟨hwindow, h.guarded, h.cleans, hothers (.of_server_eq rfl rfl)⟩

/-- A call that has returned, and with which the server must have ended. -/
inductive Settles : Call → Prop
  | stop (o : Option Outcome) : Settles (.stop (.returned o))
  | shutdown (r : Except LauncherError (Option Cache.Report)) : Settles (.shutdown (.returned r))
  | opening (e : LauncherError) (h : e.isFatal = true) : Settles (.opening (.returned (.error e)))

/-- However a launcher is used, with one start at most: where a stop or a shutdown has returned, or opening the window
has returned an error that ends the launcher, there was never a server, or its process has ended and its outcome is
known.  A call that opens the window and returns an error that leaves the window up has not asked the server to stop. -/
theorem settled (sinks : Sinks) (config : Config) {window : Window.Host} (hwindow : FailsPlainly window)
    (hx : (new config window).Runs sinks FailsPlainly x) {d : Doing} (hd : d ∈ x.calls) :
    (Settles d.call → x.spawned = false ∨ x.launcher.ServerEnded) ∧
    (∀ e, d.call = .opening (.returned (.error e)) → e.isFatal = false → d.asks = false) := by
  obtain ⟨hspawns, hsafe⟩ := hx.preserves (fun x y _ h hxy => h.step hxy) (spawns_new config window)
    (safe_new config hwindow)
  have hdoing := hsafe.calls d hd
  obtain ⟨call, asks⟩ := d
  refine ⟨fun hsettles => ?_, ?_⟩
  · have hquiet : x.launcher.Quiet := by
      cases hsettles with
      | stop o => exact hdoing
      | shutdown r => exact hdoing
      | opening e h => exact hdoing.1 e rfl h
    cases hr : x.launcher.server with
    | none => exact Or.inl (by rw [hspawns.spawned, hr]; rfl)
    | some r => exact Or.inr ⟨r, hr, hquiet r hr⟩
  · rintro e rfl hplain
    by_contra hasks
    have hends : e.isFatal = true := hdoing.2 (by simpa using hasks)
    simp [hplain] at hends

/-- A cache that cannot be listed ends the launcher while its server runs; the call has the server killed. -/
theorem settled_unlisted :
    let e : LauncherError := .cacheList "./static/images" .missing
    ∃ x, (new {} Window.headless).Runs Running.captured FailsPlainly x ∧
      x.calls = [⟨.opening (.returned (.error e)), true⟩] ∧ x.spawned = true ∧ x.launcher.ServerEnded := by
  intro e
  let w : World := ⟨⟨.directory [], []⟩, fun _ _ _ => .ok ⟨[], none, 0⟩⟩
  have hstarted : (new {} Window.headless).Runs Running.captured FailsPlainly _ := .single (.start w rfl rfl)
  have hmade := hstarted.tail (.make (.opening .begun) .opening)
  have hcreated := hmade.tail (.goOn 0 _ _ _ rfl List.mem_cons_self)
  have hjoining := hcreated.tail (.goOn 0 _ _ _ rfl List.mem_cons_self)
  have hunlisted := hjoining.tail
    (.beside [] _ (.cleanup _ _ rfl rfl (.cleared (fun _ s => .ok s) (.error .missing) ())))
  have hjoined := hunlisted.tail (.goOn 0 _ _ _ rfl List.mem_cons_self)
  have hstopping := hjoined.tail (.goOn 0 _ _ _ rfl List.mem_cons_self)
  have hasked := hstopping.tail (.goOn 0 _ _ _ rfl List.mem_cons_self)
  have hkilled := hasked.tail (.beside _ _ (.server _ _
    [.event .watcherKills, .event .watcherReaps, .event .watcherRecords, .event .watcherPublishes] rfl
    (by simp [Happening.KeepsHandle, Happening.KeepsBackground]) (Running.continues_afterAll _ _ _)))
  have hstopped := hkilled.tail (.goOn 0 _ _ _ rfl List.mem_cons_self)
  have hreturned := hstopped.tail (.goOn 0 _ _ _ rfl List.mem_cons_self)
  obtain ⟨hended, -⟩ := settled Running.captured {} failsPlainly_headless hreturned List.mem_cons_self
  exact ⟨_, hreturned, rfl, rfl, (hended (.opening e rfl)).resolve_left Bool.noConfusion⟩

end Usage

end AppLauncher.Launcher
