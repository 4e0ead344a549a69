import AppLauncher.Proofs.Launcher.Usage
import AppLauncher.Proofs.Server.Readiness

/-!
# The line that the window waits for

A server is known to have written the watched line exactly if its standard output has delivered the line, and a launcher
that waits for the line loads the server's URL only then (`ready_line_delivered`).
-/

namespace AppLauncher.Launcher

open AppLauncher.Output AppLauncher.Server Happening

variable {s t : State} {url : String}

namespace Opening

variable {o o' : Opening}

theorem Move.loads (h : Move s o t o') (hurl : .loadUrl url ∈ t.calls) :
    .loadUrl url ∈ s.calls ∨ o.verdict? = some (.ok ()) := by
  have hcalls : t.calls = s.calls → .loadUrl url ∈ s.calls := fun h => h ▸ hurl
  cases h with
  | shutsDown reason p p' t h => exact Or.inl (hcalls (Shutdown.uses h).2)
  | joinsFirst j j' t h => exact Or.inl (hcalls (Join.uses h).2.1)
  | joins since v j j' t h => exact Or.inl (hcalls (Join.uses h).2.1)
  | stops e p p' t h => exact Or.inl (hcalls (Stop.uses h).2)
  | finishes since v r =>
    cases v with
    | ok u => exact Or.inr rfl
    | error e =>
      have hshown : .loadUrl url ∈ s.calls ++ [.showError e.message] := hurl
      exact Or.inl (by simpa using hshown)
  | creates h =>
    have hcreated : .loadUrl url ∈ s.calls ++ [creation s] := hurl
    exact Or.inl (by simpa [creation] using hcreated)
  | fails e lines h =>
    have hcreated : .loadUrl url ∈ s.calls ++ [creation s] := hurl
    exact Or.inl (by simpa [creation] using hcreated)
  | _ => exact Or.inl hurl

end Opening

/-- A probe of the output can end well exactly where the line was seen. -/
theorem State.ok_mem_verdicts_iff {since : Nat} {timeout : Duration} (hprobe : s.probe = .outputLine timeout) :
    .ok () ∈ verdicts s.probe (s.moment since) ↔ ∃ r, s.server = some r ∧ r.stdout.lineSeen = true := by
  rw [hprobe]
  cases hr : s.server with
  | none =>
    have hmoment : (s.moment since).server = none := by rw [moment, hr]; rfl
    rw [verdicts, hmoment]
    simp
  | some r =>
    have hmoment : (s.moment since).server = some r.view := by rw [moment, hr]; rfl
    rw [verdicts, hmoment, Moment.mem_race_iff]
    simp [Running.view]

namespace Usage

variable {sinks : Sinks} {W : Window.Host → Prop} {x y : Usage} {line : String}

def LineDelivered (sinks : Sinks) (line : String) (x : Usage) : Prop :=
  Delivered (sinks .stdout) {} (Text.Utf8.ofString line) x.printed

/-- What is known of a launcher that waits for a line: the forwarding of the server's standard output has come to what
its reads make of it, and a wait that has ended well, or the URL that was loaded, means that the line was delivered. -/
structure Waits (sinks : Sinks) (line : String) (x : Usage) : Prop where
  strategy : x.launcher.config.readiness.strategy = .outputLine
  watched : x.launcher.config.readiness.readyLine = line
  silent : x.launcher.server = none → x.printed = []
  prints : ∀ r, x.launcher.server = some r → r.stdout =
    x.printed.foldl (Forwarding.step (sinks .stdout)) (Forwarding.watching {} (Text.Utf8.ofString line))
  judged : ∀ d ∈ x.calls, ∀ o, d.call = .opening o → o.verdict? = some (.ok ()) → x.LineDelivered sinks line
  loaded : ∀ url, .loadUrl url ∈ x.launcher.calls → x.LineDelivered sinks line

theorem waits_new (sinks : Sinks) {config : Config} (window : Window.Host)
    (h : config.readiness.strategy = .outputLine) : (new config window).Waits sinks config.readiness.readyLine where
  strategy := h
  watched := rfl
  silent _ := rfl
  prints := by simp [new]
  judged := by simp [new]
  loaded := by simp [new]

theorem Waits.delivered_of_ok (h : x.Waits sinks line) {since : Nat}
    (hok : .ok () ∈ verdicts x.launcher.probe (x.launcher.moment since)) : x.LineDelivered sinks line := by
  have hprobe : x.launcher.probe = .outputLine (.ofSeconds x.launcher.config.readiness.timeoutSeconds.toNat) := by
    rw [State.probe, ReadinessSettings.probe, h.strategy]
  obtain ⟨r, hr, hseen⟩ := (State.ok_mem_verdicts_iff hprobe).1 hok
  rw [h.prints r hr] at hseen
  exact (Forwarding.lineSeen_iff _ _ _ _).1 hseen

theorem Waits.step (hspawns : x.Spawns) (h : x.Waits sinks line) (hxy : Step sinks W x y) : y.Waits sinks line := by
  cases hxy with
  | start w hbegun hcalls =>
    have hstarts := x.launcher.starts_start w
    have hnone := hspawns.server_eq_none hbegun
    refine ⟨hstarts.config ▸ h.strategy, hstarts.config ▸ h.watched, fun _ => h.silent hnone, fun r hr => ?_,
      by simp [hcalls], fun url hurl => h.loaded url (hstarts.calls ▸ hurl)⟩
    rcases x.launcher.start_cases w with ⟨-, hserver⟩ | ⟨-, clock, pid, b, hserver⟩
    · simp [hserver, hnone] at hr
    · -- nothing was read before the only start, so the fresh server has still all its output to deliver
      have hline : x.launcher.config.readiness.watchedLine = some line := by
        rw [ReadinessSettings.watchedLine, h.strategy, ← h.watched]
      rw [hserver, hline] at hr
      obtain rfl := Option.some.inj hr
      rw [h.silent hnone]
      rfl
  | make c hc =>
    refine ⟨h.strategy, h.watched, h.silent, h.prints, fun d hd o ho hv => ?_, h.loaded⟩
    rcases List.mem_append.1 hd with hd | hd
    · exact h.judged d hd o ho hv
    · obtain rfl := List.mem_singleton.1 hd
      cases hc with
      | opening =>
        obtain rfl := Call.opening.inj ho
        cases hv
      | _ => cases ho
  | goOn i d s c hd hnext =>
    have huses := Call.uses hnext
    have hjudged := h.judged d (List.mem_of_getElem? hd)
    refine ⟨huses.config ▸ h.strategy, huses.config ▸ h.watched,
      fun hnone => h.silent (huses.keeps.server_eq_none hnone), fun r' hr' => ?_, fun d' hd' o' ho' hv => ?_,
      fun url hurl => ?_⟩
    · obtain ⟨r, hr, hstdout⟩ := huses.stdout hr'
      exact hstdout.trans (h.prints r hr)
    · rcases List.mem_or_eq_of_mem_set hd' with hd' | rfl
      · exact h.judged d' hd' o' ho' hv
      · rcases Call.next_cases hnext with ⟨p, p', -, hc, -⟩ | ⟨p, p', -, hc, -⟩ | ⟨o, o₁, ho, hc, hmove⟩ |
          ⟨r, -, hc, -⟩
        · cases hc.symm.trans ho'
        · cases hc.symm.trans ho'
        · obtain rfl := Call.opening.inj (hc.symm.trans ho')
          rcases hmove.judged hv with hv | ⟨since, hok⟩
          · exact hjudged o ho hv
          · exact h.delivered_of_ok hok
        · cases hc.symm.trans ho'
    · rcases Call.next_cases hnext with ⟨p, p', -, -, hp⟩ | ⟨p, p', -, -, hp⟩ | ⟨o, o₁, ho, -, hmove⟩ |
        ⟨r, -, -, rfl⟩
      · exact h.loaded url ((Stop.uses hp).2 ▸ hurl)
      · exact h.loaded url ((Shutdown.uses hp).2 ▸ hurl)
      · rcases hmove.loads hurl with hurl | hv
        · exact h.loaded url hurl
        · exact hjudged o ho hv
      · exact h.loaded url hurl
  | leave i =>
    exact ⟨h.strategy, h.watched, h.silent, h.prints,
      fun d hd => h.judged d (List.mem_of_mem_eraseIdx hd), h.loaded⟩
  | beside rs s hbeside =>
    have hkeeps := hbeside.background.keeps
    refine ⟨hkeeps.config ▸ h.strategy, hkeeps.config ▸ h.watched, fun hnone => ?_, fun r' hr' => ?_,
      fun d hd o ho hv => (h.judged d hd o ho hv).append rs,
      fun url hurl => (h.loaded url (hbeside.background.calls_eq ▸ hurl)).append rs⟩
    · rw [h.silent (hkeeps.server_eq_none hnone), hbeside.stdout.1 hnone]
      rfl
    · obtain ⟨r, hr, hstdout⟩ := hbeside.stdout.2 r' hr'
      rw [hstdout, h.prints r hr, List.foldl_append]
  | change window hwindow => exact ⟨h.strategy, h.watched, h.silent, h.prints, h.judged, h.loaded⟩

/-- What is known of the watched line, and what a launcher makes of it.  In whatever order reads of both streams and
events of the supervision come, and whatever the sinks answer: the line is known to be seen exactly if standard output
has delivered it, written whole and flushed, and known not to come exactly if none was asked for or standard output has
ended without it; what is known to be seen stays so, and nothing but the reads of standard output and its sink counts.
A launcher that waits for the line, however it is used, loads the server's URL only if the line was delivered. -/
theorem ready_line_delivered (sinks : Sinks) (clock pid : Nat) (b : Program.Behaviour) (line : Option String)
    (hs : List Happening) (config : Config) (window : Window.Host)
    (hstrategy : config.readiness.strategy = .outputLine) (hx : (new config window).Runs sinks W x) :
    let r := (Running.start clock pid b line).afterAll sinks hs
    (r.readyLine? = some true ↔ ∃ l, line = some l ∧
      Delivered (sinks .stdout) {} (Text.Utf8.ofString l) (reads .stdout hs)) ∧
    (r.readyLine? = some false ↔ line = none ∨ ∃ l, line = some l ∧
      EndedWithout (sinks .stdout) {} (Text.Utf8.ofString l) (reads .stdout hs)) ∧
    (∀ hs', r.readyLine? = some true → (r.afterAll sinks hs').readyLine? = some true) ∧
    (∀ sinks' hs', sinks' .stdout = sinks .stdout → reads .stdout hs' = reads .stdout hs →
      ((Running.start clock pid b line).afterAll sinks' hs').readyLine? = r.readyLine?) ∧
    (∀ url, .loadUrl url ∈ x.launcher.calls →
      Delivered (sinks .stdout) {} (Text.Utf8.ofString config.readiness.readyLine) x.printed) := by
  intro r
  have hpast : r.Past sinks line hs := ⟨clock, pid, b, Running.continues_afterAll sinks _ hs⟩
  refine ⟨hpast.readyLine?_eq_true_iff, hpast.readyLine?_eq_false_iff, fun hs' h => ?_,
    fun sinks' hs' hsink hreads => ?_, ?_⟩
  · obtain ⟨l, hl, hdelivered⟩ := hpast.readyLine?_eq_true_iff.1 h
    refine (hpast.afterAll hs').readyLine?_eq_true_iff.2 ⟨l, hl, ?_⟩
    rw [reads_append]
    exact hdelivered.append _
  · have hpast' : ((Running.start clock pid b line).afterAll sinks' hs').Past sinks' line hs' :=
      ⟨clock, pid, b, Running.continues_afterAll sinks' _ hs'⟩
    have hstdout : ((Running.start clock pid b line).afterAll sinks' hs').stdout = r.stdout := by
      rw [hpast'.stdout_eq, hpast.stdout_eq, hsink, hreads]
    rw [Running.readyLine?, Running.readyLine?, hstdout, hpast'.forwards, hpast.forwards]
  · have hwaits := (hx.preserves (fun x y hspawns h hxy => h.step hspawns hxy) (spawns_new config window)
      (waits_new sinks window hstrategy)).2
    exact hwaits.loaded

/-- A server writes the line in two pieces, the second one after its standard error has closed; the URL is loaded. -/
theorem ready_line_delivered_up :
    let config : Config :=
      { cache := { clearOnStart := false }, readiness := { strategy := .outputLine, readyLine := "up" } }
    let hs : List Happening := [.read .stdout (.bytes [117]), .read .stderr (.bytes []),
      .read .stdout (.bytes [112, 10]), .read .stdout (.bytes [])]
    config.readiness.strategy = .outputLine ∧
      ((Running.start 0 7 ⟨[], none, 0⟩ (some "up")).afterAll Running.captured hs).readyLine? = some true ∧
      ∃ x, (new config Window.headless).Runs Running.captured (fun _ => True) x ∧
        .loadUrl config.server.url ∈ x.launcher.calls ∧
        Delivered Capture.operations {} (Text.Utf8.ofString "up") x.printed := by
  intro config hs
  let w : World := ⟨⟨.directory [], []⟩, fun _ _ _ => .ok ⟨[], none, 0⟩⟩
  have hstarted : (new config Window.headless).Runs Running.captured (fun _ => True) _ := .single (.start w rfl rfl)
  have hmade := hstarted.tail (.make (.opening .begun) .opening)
  have hcreated := hmade.tail (.goOn 0 _ _ _ rfl List.mem_cons_self)
  have hjoined := hcreated.tail (.goOn 0 _ _ _ rfl List.mem_cons_self)
  have hwaiting := hjoined.tail (.goOn 0 _ _ _ rfl List.mem_cons_self)
  have hprinted := hwaiting.tail (.beside _ _ (.server _ _ hs rfl
    (by simp [hs, Happening.KeepsHandle, Happening.KeepsBackground]) (Running.continues_afterAll _ _ _)))
  have hseen : ((Running.start 0 (Program.launcherPid + 1) ⟨[], none, 0⟩ (some "up")).afterAll Running.captured
      hs).stdout.lineSeen = true := rfl
  have hjudged := hprinted.tail (.goOn 0 _ _ _ rfl (List.mem_map_of_mem
    (Opening.judging_mem_next _ ((State.ok_mem_verdicts_iff rfl).2 ⟨_, rfl, hseen⟩))))
  have hloaded := hjudged.tail (.goOn 0 _ _ _ rfl List.mem_cons_self)
  obtain ⟨-, -, -, -, hdelivered⟩ :=
    ready_line_delivered Running.captured 0 7 ⟨[], none, 0⟩ (some "up") hs config Window.headless rfl hloaded
  have hcalled : .loadUrl config.server.url ∈ [Window.Call.create (.ofSettings {}), .loadUrl config.server.url] :=
    List.mem_cons_of_mem _ List.mem_cons_self
  exact ⟨rfl, rfl, _, hloaded, hcalled, hdelivered _ hcalled⟩

end Usage

end AppLauncher.Launcher
