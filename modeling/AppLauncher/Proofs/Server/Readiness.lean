import AppLauncher.Launcher.State
import AppLauncher.Proofs.Server.Advance
import Mathlib.Order.Bounds.Basic

/-!
# What a wait for readiness can end with

While a wait goes on, time passes, attempts to connect succeed or fail, and anything may happen to the server
(`Incident`), in any order.  The verdicts of a moment are those that what has happened so far justifies, and no others
(`verdicts_justified`).  A launcher's wait, with its attempts by an interval, goes through some of these incidents
(`moment_eq`), and a wait without a server ends at the first moment at which they justify a verdict
(`isLeast_verdictAlone`, `verdictAlone_justified`).
-/

namespace AppLauncher.Server

open AppLauncher.Output Happening

/-- What happens while a wait goes on. -/
inductive Incident
  | time (millis : Nat)
  | attempt (succeeds : Bool)
  | server (h : Happening)

namespace Incident

/-- What an incident is for the server, for which time passes as well. -/
def happening? : Incident → Option Happening
  | time n => some (.event (.tick n))
  | attempt _ => none
  | server h => some h

/-- Whatever runs in the background is not dropped. -/
def KeepsBackground (i : Incident) : Prop := i ≠ server (.event .backgroundDropped)

def happenings (is : List Incident) : List Happening := is.filterMap happening?

/-- How long incidents take together, in milliseconds. -/
def duration : List Incident → Nat
  | [] => 0
  | time n :: is => n + duration is
  | _ :: is => duration is

theorem duration_append (is is' : List Incident) : duration (is ++ is') = duration is + duration is' := by
  induction is with
  | nil => exact (Nat.zero_add _).symm
  | cons i is ih =>
    cases i with
    | time n => simpa [duration, ih] using (Nat.add_assoc ..).symm
    | _ => exact ih

theorem happenings_append (is is' : List Incident) : happenings (is ++ is') = happenings is ++ happenings is' :=
  List.filterMap_append

theorem keepsBackground_of_mem_happenings {is : List Incident} (his : ∀ i ∈ is, i.KeepsBackground) {h : Happening}
    (hh : h ∈ happenings is) : h.KeepsBackground := by
  obtain ⟨i, hi, hih⟩ := List.mem_filterMap.1 hh
  cases i with
  | time n =>
    obtain rfl := Option.some.inj hih
    simp [Happening.KeepsBackground]
  | attempt ok => cases hih
  | server h' =>
    obtain rfl := Option.some.inj hih
    rintro rfl
    exact his _ hi rfl

end Incident

open Incident

def timeout? : Probe → Option Duration
  | .delay _ => none
  | .port _ _ timeout => some timeout
  | .outputLine timeout => some timeout

/-- A wait: for how long it has gone on, whether an attempt to connect has succeeded, and the server if there is
one. -/
structure Wait where
  server : Option Running
  elapsed : Nat := 0
  connected : Bool := false

namespace Wait

def after (sinks : Sinks) (w : Wait) : Incident → Wait
  | .time n => { w with elapsed := w.elapsed + n, server := w.server.map (·.after sinks (.event (.tick n))) }
  | .attempt succeeds => { w with connected := w.connected || succeeds }
  | .server h => { w with server := w.server.map (·.after sinks h) }

def afterAll (sinks : Sinks) (w : Wait) (is : List Incident) : Wait := is.foldl (after sinks) w

def moment (w : Wait) : Moment := ⟨w.elapsed, w.connected, w.server.map (·.view)⟩

variable {w : Wait}

theorem elapsed_afterAll (sinks : Sinks) (w : Wait) (is : List Incident) :
    (w.afterAll sinks is).elapsed = w.elapsed + duration is := by
  induction is generalizing w with
  | nil => rfl
  | cons i is ih =>
    have hrest : (w.afterAll sinks (i :: is)).elapsed = (w.after sinks i).elapsed + duration is := ih _
    rw [hrest]
    cases i with
    | time n => exact Nat.add_assoc ..
    | _ => rfl

theorem connected_afterAll (sinks : Sinks) (w : Wait) (is : List Incident) :
    (w.afterAll sinks is).connected = true ↔ w.connected = true ∨ .attempt true ∈ is := by
  induction is generalizing w with
  | nil => simp [afterAll]
  | cons i is ih =>
    have hrest : (w.afterAll sinks (i :: is)).connected = true ↔
        (w.after sinks i).connected = true ∨ .attempt true ∈ is := ih _
    rw [hrest]
    cases i with
    | attempt succeeds => cases succeeds <;> simp [after]
    | _ => simp [after]

theorem server_afterAll (sinks : Sinks) (w : Wait) (is : List Incident) :
    (w.afterAll sinks is).server = w.server.map (·.afterAll sinks (happenings is)) := by
  induction is generalizing w with
  | nil => cases hr : w.server <;> simp [afterAll, happenings, Running.afterAll, hr]
  | cons i is ih =>
    have hrest : (w.afterAll sinks (i :: is)).server =
        (w.after sinks i).server.map (·.afterAll sinks (happenings is)) := ih _
    rw [hrest]
    cases i with
    | attempt succeeds => rfl
    | _ => exact Option.map_map ..

end Wait

/-! ### The verdicts of a moment -/

namespace Moment

variable {m : Moment} {v : Verdict}

/-- Time is counted in milliseconds, so a span has passed when as many have passed as it has begun. -/
theorem hasPassed_iff {d : Duration} : m.hasPassed d = true ↔ d.toMillisCeil ≤ m.elapsed := by
  rw [hasPassed, decide_eq_true_iff, Duration.toMillisCeil]
  omega

theorem mem_ended_iff : v ∈ m.ended ↔ ∃ o, m.server.bind (·.awaited) = some o ∧
    v = .error (.serverExitedEarly o.text) := by
  cases ho : m.server.bind (·.awaited) <;> simp [Moment.ended, ho]

theorem mem_late_iff {t : Duration} :
    v ∈ m.late t ↔ t.toNanos ≤ m.elapsed * 1000000 ∧ v = .error (.readinessTimeout t) := by
  by_cases h : t.toNanos ≤ m.elapsed * 1000000 <;> simp [Moment.late, Moment.hasPassed, h]

/-- What a race between readiness, the server's end and the time can end with. -/
theorem mem_race_iff {ready : Bool} {t : Duration} :
    v ∈ (if ready then [.ok ()] else []) ++ m.ended ++ m.late t ↔
      (ready = true ∧ v = .ok ()) ∨ (∃ o, m.server.bind (·.awaited) = some o ∧
        v = .error (.serverExitedEarly o.text)) ∨
      (t.toNanos ≤ m.elapsed * 1000000 ∧ v = .error (.readinessTimeout t)) := by
  rw [List.append_assoc, List.mem_append, List.mem_append, mem_ended_iff, mem_late_iff, List.mem_ite_nil_right,
    List.mem_singleton]

/-- A wait fails by the server's end, by the time, or because there is no server. -/
theorem error_of_mem_verdicts {p : Probe} {e : LauncherError} (h : .error e ∈ verdicts p m) :
    (∃ o : Outcome, e = .serverExitedEarly o.text) ∨ (∃ t, e = .readinessTimeout t) ∨ e = .notStarted := by
  have hrace {ready : Bool} {t : Duration}
      (h : .error e ∈ (if ready then [.ok ()] else []) ++ m.ended ++ m.late t) :
      (∃ o : Outcome, e = .serverExitedEarly o.text) ∨ (∃ t, e = .readinessTimeout t) ∨ e = .notStarted := by
    rcases mem_race_iff.1 h with ⟨-, he⟩ | ⟨o, -, he⟩ | ⟨-, he⟩
    · cases he
    · exact Or.inl ⟨o, Except.error.inj he⟩
    · exact Or.inr (Or.inl ⟨t, Except.error.inj he⟩)
  cases p with
  | delay d => simp [verdicts] at h
  | port address interval timeout => exact hrace h
  | outputLine timeout =>
    cases hs : m.server with
    | none => exact Or.inr (Or.inr (by simpa [verdicts, hs] using h))
    | some view =>
      rw [verdicts, hs] at h
      exact hrace h

/-- A wait that has lasted to its limit can end. -/
theorem verdicts_ne_nil {p : Probe} (h : limit p ≤ m.elapsed) : verdicts p m ≠ [] := by
  cases p with
  | delay wait => simp [verdicts, hasPassed_iff.2 h]
  | port address interval timeout => simp [verdicts, late, hasPassed_iff.2 h]
  | outputLine timeout => cases hs : m.server <;> simp [verdicts, hs, late, hasPassed_iff.2 h]

theorem nodup_verdicts (p : Probe) (m : Moment) : (verdicts p m).Nodup := by
  have hrace (ready : Bool) (t : Duration) :
      ((if ready then [.ok ()] else []) ++ m.ended ++ m.late t : List Verdict).Nodup := by
    cases ho : m.server.bind (·.awaited) <;> cases ready <;> cases hl : m.hasPassed t <;>
      simp [Moment.ended, Moment.late, ho, hl]
  cases p with
  | delay d => cases h : m.hasPassed d <;> simp [verdicts, h]
  | port address interval timeout => exact hrace m.connected timeout
  | outputLine timeout =>
    cases hs : m.server with
    | none => simp [verdicts, hs]
    | some view => simpa [verdicts, hs] using hrace view.lineSeen timeout

end Moment

/-! ### Verdicts that are justified -/

section

variable (sinks : Sinks) (line : Option String) (server : Option Running) (past : List Happening) (is : List Incident)

/-- What the incidents of a wait justify, on a server that has a past. -/
inductive Justified : Probe → Verdict → Prop
  /-- The delay is over. -/
  | delayed {d : Duration} (h : d.toNanos ≤ duration is * 1000000) : Justified (.delay d) (.ok ())
  /-- An attempt to connect has succeeded. -/
  | connected {address : String} {interval timeout : Duration} (h : .attempt true ∈ is) :
      Justified (.port address interval timeout) (.ok ())
  /-- The server's standard output has delivered the line. -/
  | seen {timeout : Duration} {l : String} (hserver : server.isSome = true) (hline : line = some l)
      (h : Delivered (sinks .stdout) {} (Text.Utf8.ofString l) (reads .stdout (past ++ happenings is))) :
      Justified (.outputLine timeout) (.ok ())
  /-- The server has ended, and the outcome that waiting for it gave is known. -/
  | ended {p : Probe} {r : Running} {o : Outcome} (hp : (timeout? p).isSome = true) (hserver : server = some r)
      (hleft : (r.afterAll sinks (happenings is)).supervision.HasLeft o)
      (h : (r.afterAll sinks (happenings is)).exited = some o) : Justified p (.error (.serverExitedEarly o.text))
  /-- The time of the probe is over. -/
  | late {p : Probe} {t : Duration} (hp : timeout? p = some t) (hserver : p = .outputLine t → server.isSome = true)
      (h : t.toNanos ≤ duration is * 1000000) : Justified p (.error (.readinessTimeout t))
  /-- There is no server whose output could be watched. -/
  | alone {timeout : Duration} (hserver : server = none) : Justified (.outputLine timeout) (.error .notStarted)

end

namespace Wait

variable {sinks : Sinks} {line : Option String} {server : Option Running} {past : List Happening}
  {is : List Incident} {v : Verdict}

def begin (server : Option Running) : Wait := { server }

private theorem past_server (hserver : ∀ r, server = some r → r.Past sinks line past) (is : List Incident)
    {r : Running} (hr : server = some r) : (r.afterAll sinks (happenings is)).Past sinks line (past ++ happenings is) :=
  (hserver r hr).afterAll (happenings is)

theorem elapsed_moment (server : Option Running) :
    ((begin server).afterAll sinks is).moment.elapsed = duration is :=
  (elapsed_afterAll sinks _ is).trans (Nat.zero_add _)

theorem connected_moment (server : Option Running) :
    ((begin server).afterAll sinks is).moment.connected = true ↔ .attempt true ∈ is := by
  have h : ((begin server).afterAll sinks is).moment.connected = true ↔ false = true ∨ .attempt true ∈ is :=
    connected_afterAll sinks (begin server) is
  simpa using h

theorem server_moment (server : Option Running) : ((begin server).afterAll sinks is).moment.server =
    server.map fun r => (r.afterAll sinks (happenings is)).view := by
  have h : ((begin server).afterAll sinks is).server = server.map (·.afterAll sinks (happenings is)) :=
    server_afterAll sinks (begin server) is
  rw [moment, h, Option.map_map]
  rfl

private theorem awaited_moment (hserver : ∀ r, server = some r → r.Past sinks line past)
    (hpast : ∀ h ∈ past, h.KeepsBackground) (his : ∀ i ∈ is, i.KeepsBackground) {o : Outcome} :
    ((begin server).afterAll sinks is).moment.server.bind (·.awaited) = some o ↔
      ∃ r, server = some r ∧ (r.afterAll sinks (happenings is)).supervision.HasLeft o ∧
        (r.afterAll sinks (happenings is)).exited = some o := by
  rw [server_moment]
  cases server with
  | none => simp
  | some r =>
    have hsound := (past_server hserver is rfl).sound fun h hh =>
      (List.mem_append.1 hh).elim (hpast h) (keepsBackground_of_mem_happenings his)
    have hawaited : (r.afterAll sinks (happenings is)).view.awaited = (r.afterAll sinks (happenings is)).exited :=
      hsound.awaited?_eq
    rw [Option.map_some, Option.bind_some, hawaited]
    constructor
    · intro ho
      exact ⟨r, rfl, hsound.hasLeft_of_exit ho, ho⟩
    · rintro ⟨r', hr', -, ho⟩
      obtain rfl := Option.some.inj hr'
      exact ho

/-- Where readiness, the server's end and the time race, whatever is there is justified if readiness is. -/
private theorem mem_race_iff (hserver : ∀ r, server = some r → r.Past sinks line past)
    (hpast : ∀ h ∈ past, h.KeepsBackground) (his : ∀ i ∈ is, i.KeepsBackground) {p : Probe} {t : Duration}
    (hp : timeout? p = some t) (hsome : p = .outputLine t → server.isSome = true) {ready : Bool}
    (hready : ready = true ↔ Justified sinks line server past is p (.ok ())) :
    v ∈ (if ready then [.ok ()] else []) ++ ((begin server).afterAll sinks is).moment.ended ++
        ((begin server).afterAll sinks is).moment.late t ↔ Justified sinks line server past is p v := by
  rw [Moment.mem_race_iff, elapsed_moment, hready]
  constructor
  · rintro (⟨h, rfl⟩ | ⟨o, ho, rfl⟩ | ⟨ht, rfl⟩)
    · exact h
    · obtain ⟨r, hr, hleft, hexit⟩ := (awaited_moment hserver hpast his).1 ho
      exact .ended (by simp [hp]) hr hleft hexit
    · exact .late hp hsome ht
  · intro h
    cases v with
    | ok u => exact Or.inl ⟨h, rfl⟩
    | error e =>
      refine Or.inr ?_
      cases h with
      | @ended _ r o _ hr hleft h => exact Or.inl ⟨o, (awaited_moment hserver hpast his).2 ⟨r, hr, hleft, h⟩, rfl⟩
      | @late _ t' hp' hs h =>
        obtain rfl : t' = t := by simpa [hp'] using hp
        exact Or.inr ⟨h, rfl⟩
      | @alone t' hs =>
        obtain rfl : t' = t := by simpa [timeout?] using hp
        simp [hs] at hsome

theorem mem_verdicts_iff (hserver : ∀ r, server = some r → r.Past sinks line past)
    (hpast : ∀ h ∈ past, h.KeepsBackground) (his : ∀ i ∈ is, i.KeepsBackground) (p : Probe) :
    v ∈ verdicts p ((begin server).afterAll sinks is).moment ↔ Justified sinks line server past is p v := by
  cases p with
  | delay d =>
    have hpassed : ((begin server).afterAll sinks is).moment.hasPassed d = true ↔
        d.toNanos ≤ duration is * 1000000 := by
      rw [Moment.hasPassed, elapsed_moment, decide_eq_true_iff]
    rw [verdicts, List.mem_ite_nil_right, List.mem_singleton, hpassed]
    constructor
    · rintro ⟨h, rfl⟩
      exact .delayed h
    · rintro (h | h | h | ⟨hp⟩ | ⟨hp⟩)
      · exact ⟨h, rfl⟩
      · cases hp
      · cases hp
  | port address interval timeout =>
    refine mem_race_iff hserver hpast his rfl (by simp) ((connected_moment server).trans ⟨.connected, fun h => ?_⟩)
    cases h with
    | connected h => exact h
  | outputLine timeout =>
    have hmoment : ((begin server).afterAll sinks is).moment.server = _ := server_moment server
    cases server with
    | none =>
      -- without a server there is no race: a timeout is justified only where there is one
      rw [verdicts, hmoment, Option.map_none, List.mem_singleton]
      constructor
      · rintro rfl
        exact .alone rfl
      · intro h
        cases h with
        | seen hs hl h => cases hs
        | ended hp hs hleft h => cases hs
        | late hp hs h =>
          obtain rfl := Option.some.inj hp
          cases hs rfl
        | alone hs => rfl
    | some r =>
      have hseen := (past_server hserver is rfl).lineSeen_iff
      rw [verdicts, hmoment, Option.map_some]
      refine mem_race_iff hserver hpast his rfl (fun _ => rfl) (hseen.trans ⟨fun ⟨l, hl, h⟩ => .seen rfl hl h, ?_⟩)
      intro h
      cases h with
      | seen hs hl h => exact ⟨_, hl, h⟩

/-- Whatever has happened before and during a wait, and in whatever order, the verdicts that it can end with are those
that are justified: a delay ends well and not before its time, a probe of the port ends well after an attempt that has
succeeded, a probe of the output after its line was delivered; the server's end is reported with its outcome, a timeout
after its time, and that there is no server only where its output is to be watched.  Where one verdict alone is
justified, the wait ends with that one, and once standard output has ended without the line, a probe of the output
cannot end well any more. -/
theorem verdicts_justified (sinks : Sinks) (line : Option String) (server : Option Running) (past : List Happening)
    (hserver : ∀ r, server = some r → r.Past sinks line past) (hpast : ∀ h ∈ past, h.KeepsBackground) (p : Probe)
    (is later : List Incident) (his : ∀ i ∈ is ++ later, i.KeepsBackground) :
    (∀ v, v ∈ verdicts p ((begin server).afterAll sinks is).moment ↔ Justified sinks line server past is p v) ∧
    (∀ v, (∀ v', Justified sinks line server past is p v' ↔ v' = v) →
      verdicts p ((begin server).afterAll sinks is).moment = [v]) ∧
    (∀ d e, p = .delay d → .error e ∉ verdicts p ((begin server).afterAll sinks is).moment) ∧
    (∀ t, p = .outputLine t → server.isSome = true →
      (∀ l, line = some l →
        EndedWithout (sinks .stdout) {} (Text.Utf8.ofString l) (reads .stdout (past ++ happenings is))) →
      ∀ v ∈ verdicts p ((begin server).afterAll sinks (is ++ later)).moment,
        (∃ o : Outcome, v = .error (.serverExitedEarly o.text)) ∨ v = .error (.readinessTimeout t)) := by
  have his' : ∀ i ∈ is, i.KeepsBackground := fun i hi => his i (List.mem_append_left _ hi)
  have hiff v := mem_verdicts_iff (v := v) hserver hpast his' p
  refine ⟨hiff, fun v hv => ?_, ?_, ?_⟩
  · have hmem : ∀ v', v' ∈ verdicts p ((begin server).afterAll sinks is).moment ↔ v' ∈ [v] := fun v' =>
      (hiff v').trans ((hv v').trans List.mem_singleton.symm)
    exact List.perm_singleton.1 ((List.perm_ext_iff_of_nodup (Moment.nodup_verdicts p _) (by simp)).2 hmem)
  · rintro d e rfl he
    cases (hiff _).1 he with
    | ended hp hr hleft h => cases hp
    | late hp hs h => cases hp
  · rintro t rfl hsome hended v hv
    cases (mem_verdicts_iff hserver hpast his _).1 hv with
    | @seen _ l hs hl h =>
      -- what is read later cannot deliver the line any more
      rw [happenings_append, ← List.append_assoc, reads_append] at h
      exact absurd h ((hended l hl).not_delivered _)
    | @ended _ r o hp hr hleft h => exact Or.inl ⟨o, rfl⟩
    | late hp hs h =>
      obtain rfl := Option.some.inj hp
      exact Or.inr rfl
    | alone hs => simp [hs] at hsome

/-- The server ends before anything else, which is then the only verdict; that connections succeed afterwards makes a
second one possible. -/
theorem verdicts_justified_race :
    let p : Probe := .port "localhost:8050" (.ofMillis 200) (.ofSeconds 1)
    let server : Running := .start 0 7 ⟨[], none, 0⟩ none
    let is : List Incident := [.attempt false, .time 150, .server (.event (.childEnds (.code 3))),
      .server (.event .watcherReaps), .server (.event .watcherRecords), .server (.event .watcherPublishes)]
    let later : List Incident := [.time 50, .attempt true]
    verdicts p ((begin (some server)).afterAll Running.captured is).moment = [.error (.serverExitedEarly "code 3")] ∧
      Justified Running.captured none (some server) [] is p (.error (.serverExitedEarly "code 3")) ∧
      verdicts p ((begin (some server)).afterAll Running.captured (is ++ later)).moment =
        [.ok (), .error (.serverExitedEarly "code 3")] := by
  intro p server is later
  have hserver : ∀ r, some server = some r → r.Past Running.captured none [] := by
    rintro r hr
    obtain rfl := Option.some.inj hr
    exact ⟨0, 7, ⟨[], none, 0⟩, Running.continues_afterAll _ _ []⟩
  have his : ∀ i ∈ is ++ later, i.KeepsBackground := by
    simp [is, later, Incident.KeepsBackground]
  obtain ⟨hiff, -⟩ := verdicts_justified Running.captured none (some server) [] hserver (by simp) p is later his
  exact ⟨by decide, (hiff _).1 (by decide), by decide⟩

/-! ### Attempts by an interval -/

/-- The attempts of a wait: one at its begin, and one after each of some pauses. -/
def attempts (accepts : Nat → Bool) (pause : Nat) : Nat → List Incident
  | 0 => [.attempt (accepts 0)]
  | n + 1 => attempts accepts pause n ++ [.time pause, .attempt (accepts ((n + 1) * pause))]

/-- What a wait goes through by itself in some milliseconds, if connections are accepted from some moment on. -/
def course (p : Probe) (accepting : Option Nat) (elapsed : Nat) : List Incident :=
  match p with
  | .port _ interval _ =>
    attempts (fun t => accepting.any (· ≤ t)) (pause interval) (elapsed / pause interval) ++
      [.time (elapsed % pause interval)]
  | _ => [.time elapsed]

theorem duration_attempts (accepts : Nat → Bool) (pause n : Nat) :
    duration (attempts accepts pause n) = n * pause := by
  induction n with
  | zero => simp [attempts, duration]
  | succ n ih => simp [attempts, duration_append, duration, ih, Nat.succ_mul]

theorem mem_attempts (accepts : Nat → Bool) (pause n : Nat) :
    .attempt true ∈ attempts accepts pause n ↔ ∃ k ≤ n, accepts (k * pause) = true := by
  induction n with
  | zero => simp [attempts, @eq_comm Bool true]
  | succ n ih =>
    have hlast : .attempt true ∈ [Incident.time pause, .attempt (accepts ((n + 1) * pause))] ↔
        accepts ((n + 1) * pause) = true := by simp [@eq_comm Bool true]
    rw [attempts, List.mem_append, ih, hlast]
    constructor
    · rintro (⟨k, hk, h⟩ | h)
      · exact ⟨k, by omega, h⟩
      · exact ⟨n + 1, le_refl _, h⟩
    · rintro ⟨k, hk, h⟩
      rcases Nat.le_succ_iff.1 hk with hk | rfl
      · exact Or.inl ⟨k, hk, h⟩
      · exact Or.inr h

theorem duration_course (p : Probe) (accepting : Option Nat) (elapsed : Nat) :
    duration (course p accepting elapsed) = elapsed := by
  cases p with
  | port address interval timeout =>
    rw [course, duration_append, duration_attempts, Nat.mul_comm]
    exact Nat.div_add_mod elapsed (pause interval)
  | _ => rfl

/-- The first attempt that succeeds is the first one at which connections are accepted. -/
theorem attemptAt_mul_le_iff (interval : Duration) (moment elapsed : Nat) :
    attemptAt interval moment * pause interval ≤ elapsed ↔
      ∃ k ≤ elapsed / pause interval, moment ≤ k * pause interval := by
  have hpos : 0 < pause interval := Nat.lt_of_lt_of_le Nat.zero_lt_one (Nat.le_max_left ..)
  have hle (k : Nat) : attemptAt interval moment ≤ k ↔ moment ≤ k * pause interval := by
    rw [attemptAt, Nat.div_le_iff_le_mul_add_pred hpos, Nat.mul_comm]
    omega
  rw [← Nat.le_div_iff_mul_le hpos]
  constructor
  · intro h
    exact ⟨_, h, (hle _).1 (le_refl _)⟩
  · rintro ⟨k, hk, h⟩
    exact ((hle k).2 h).trans hk

theorem mem_course (p : Probe) (accepting : Option Nat) (elapsed : Nat) :
    .attempt true ∈ course p accepting elapsed ↔ (connection p accepting).any (· ≤ elapsed) = true := by
  cases p with
  | port address interval timeout =>
    have hlast : .attempt true ∉ [Incident.time (elapsed % pause interval)] := by simp
    rw [course, List.mem_append, or_iff_left hlast, mem_attempts]
    cases accepting with
    | none => simp [connection]
    | some moment =>
      have hconnection : connection (.port address interval timeout) (some moment) =
          some (attemptAt interval moment * pause interval) := rfl
      rw [hconnection, Option.any_some, decide_eq_true_iff, attemptAt_mul_le_iff]
      simp only [Option.any_some, decide_eq_true_iff]
  | _ => simp [course, connection]

theorem server_notMem_course (h : Happening) (p : Probe) (accepting : Option Nat) (elapsed : Nat) :
    .server h ∉ course p accepting elapsed := by
  have hattempts (accepts : Nat → Bool) (pause n : Nat) : Incident.server h ∉ attempts accepts pause n := by
    induction n with
    | zero => simp [attempts]
    | succ n ih => simpa [attempts] using ih
  cases p with
  | port address interval timeout => simpa [course] using hattempts _ _ _
  | _ => simp [course]

theorem mem_happenings_course {p : Probe} {accepting : Option Nat} {elapsed : Nat} {h : Happening}
    (hh : h ∈ happenings (course p accepting elapsed)) : ∃ n, h = .event (.tick n) := by
  obtain ⟨i, hi, hih⟩ := List.mem_filterMap.1 hh
  cases i with
  | time n => exact ⟨n, (Option.some.inj hih).symm⟩
  | attempt succeeds => cases hih
  | server h' => exact absurd hi (server_notMem_course h' p accepting elapsed)

theorem keepsBackground_of_mem_course {p : Probe} {accepting : Option Nat} {elapsed : Nat} {i : Incident}
    (hi : i ∈ course p accepting elapsed) : i.KeepsBackground := by
  rintro rfl
  exact server_notMem_course _ _ _ _ hi

end Wait

namespace Running

/-- That time passes is nothing that a wait learns of the server. -/
theorem view_afterAll_of_ticks (sinks : Sinks) (r : Running) {hs : List Happening}
    (hhs : ∀ h ∈ hs, ∃ n, h = .event (.tick n)) : (r.afterAll sinks hs).view = r.view := by
  induction hs generalizing r with
  | nil => rfl
  | cons h hs ih =>
    obtain ⟨n, rfl⟩ := hhs h (by simp)
    exact ih (r.after sinks (.event (.tick n))) fun h hh => hhs h (by simp [hh])

end Running

namespace Wait

theorem moment_course (sinks : Sinks) (server : Option Running) (p : Probe) (accepting : Option Nat) (elapsed : Nat) :
    ((begin server).afterAll sinks (course p accepting elapsed)).moment =
      ⟨elapsed, (connection p accepting).any (· ≤ elapsed), server.map (·.view)⟩ := by
  let m := ((begin server).afterAll sinks (course p accepting elapsed)).moment
  have helapsed : m.elapsed = elapsed := (elapsed_moment server).trans (duration_course ..)
  have hconnected : m.connected = (connection p accepting).any (· ≤ elapsed) :=
    Bool.eq_iff_iff.2 ((connected_moment server).trans (mem_course ..))
  have hserver : m.server = server.map (·.view) :=
    (server_moment server).trans
      (Option.map_congr fun r _ => r.view_afterAll_of_ticks sinks fun h hh => mem_happenings_course hh)
  calc m = ⟨m.elapsed, m.connected, m.server⟩ := rfl
    _ = _ := by rw [helapsed, hconnected, hserver]

/-! ### The end of a wait without a server -/

/-- A moment of a wait without a server. -/
def alone (p : Probe) (accepting : Option Nat) (elapsed : Nat) : Moment :=
  ⟨elapsed, (connection p accepting).any (· ≤ elapsed), none⟩

/-- A wait without a server has no verdict before its limit and before an attempt has succeeded, unless it is for
output. -/
theorem verdicts_alone_eq_nil_iff {p : Probe} {accepting : Option Nat} {elapsed : Nat} :
    verdicts p (alone p accepting elapsed) = [] ↔
      elapsed < limit p ∧ (∀ t ∈ connection p accepting, elapsed < t) ∧ ∀ timeout, p ≠ .outputLine timeout := by
  have hpassed {d : Duration} : (alone p accepting elapsed).hasPassed d = true ↔ d.toMillisCeil ≤ elapsed :=
    Moment.hasPassed_iff
  have hserver : (alone p accepting elapsed).server = none := rfl
  have hconnected : (alone p accepting elapsed).connected = false ↔ ∀ t ∈ connection p accepting, elapsed < t := by
    cases h : connection p accepting <;> simp [alone, h]
  cases p with
  | delay wait => simp [verdicts, connection, limit, hpassed]
  | port address interval timeout =>
    simp [verdicts, Moment.late, Moment.ended, limit, hpassed, hserver, hconnected, and_comm]
  | outputLine timeout => simp [verdicts, hserver]

theorem mem_verdicts_alone_iff (sinks : Sinks) (line : Option String) {p : Probe} {accepting : Option Nat}
    {elapsed : Nat} {v : Verdict} : v ∈ verdicts p (alone p accepting elapsed) ↔
      Justified sinks line none [] (course p accepting elapsed) p v := by
  have hmoment : _ = alone p accepting elapsed := moment_course sinks none p accepting elapsed
  rw [← hmoment]
  exact mem_verdicts_iff (by simp) (by simp) (fun i hi => keepsBackground_of_mem_course hi) p

/-- The search for the end of a wait looks at the first moment at which it can end, and takes a verdict of then. -/
theorem verdictAlone_eq (p : Probe) (accepting : Option Nat) :
    IsLeast {t | verdicts p (alone p accepting t) ≠ []} (verdictAlone p accepting).1 ∧
      (verdictAlone p accepting).2 = (verdicts p (alone p accepting (verdictAlone p accepting).1)).head? := by
  unfold verdictAlone
  dsimp only
  split
  · rename_i v hv
    refine ⟨⟨fun hnil => ?_, fun t ht => Nat.zero_le t⟩, hv.symm⟩
    cases (congrArg List.head? hnil).symm.trans hv
  · rename_i hnone
    refine ⟨?_, rfl⟩
    -- the wait cannot end at once, so it is not for output
    obtain ⟨-, -, hprobe⟩ := verdicts_alone_eq_nil_iff.1 (List.head?_eq_none_iff.1 hnone)
    have hends (t : Nat) : verdicts p (alone p accepting t) = [] ↔
        t < limit p ∧ ∀ c ∈ connection p accepting, t < c :=
      verdicts_alone_eq_nil_iff.trans ⟨fun ⟨hlimit, hc, _⟩ => ⟨hlimit, hc⟩, fun ⟨hlimit, hc⟩ => ⟨hlimit, hc, hprobe⟩⟩
    cases hc : connection p accepting with
    | none =>
      have hset : {t | verdicts p (alone p accepting t) ≠ []} = Set.Ici (limit p) := by
        ext t
        simp [hends, hc]
      rw [hset]
      exact isLeast_Ici
    | some c =>
      have hset : {t | verdicts p (alone p accepting t) ≠ []} = Set.Ici (min c (limit p)) := by
        ext t
        have h : ¬ (t < limit p ∧ t < c) ↔ min c (limit p) ≤ t := by omega
        simpa [hends, hc] using h
      rw [hset]
      exact isLeast_Ici

/-- The search finds the first moment at which the course of the wait justifies a verdict. -/
theorem isLeast_verdictAlone (sinks : Sinks) (line : Option String) (p : Probe) (accepting : Option Nat) :
    IsLeast {t | ∃ v, Justified sinks line none [] (course p accepting t) p v} (verdictAlone p accepting).1 := by
  have hset : {t | ∃ v, Justified sinks line none [] (course p accepting t) p v} =
      {t | verdicts p (alone p accepting t) ≠ []} := by
    ext t
    simp [← mem_verdicts_alone_iff, List.eq_nil_iff_forall_not_mem]
  rw [hset]
  exact (verdictAlone_eq p accepting).1

/-- The verdict of the search is there, and it is justified at that moment. -/
theorem verdictAlone_justified (sinks : Sinks) (line : Option String) (p : Probe) (accepting : Option Nat) :
    ∃ v, (verdictAlone p accepting).2 = some v ∧
      Justified sinks line none [] (course p accepting (verdictAlone p accepting).1) p v := by
  obtain ⟨⟨hne, -⟩, hhead⟩ := verdictAlone_eq p accepting
  have hv := hhead.trans (List.head?_eq_some_head hne)
  exact ⟨_, hv, (mem_verdicts_alone_iff sinks line).1 (List.head_mem hne)⟩

end Wait

end AppLauncher.Server

namespace AppLauncher.Launcher.State

open AppLauncher.Server

/-- What a launcher's wait knows by now is what any wait knows that has gone through the same. -/
theorem moment_eq (sinks : Sinks) (s : State) (since : Nat) : s.moment since =
    ((Wait.begin s.server).afterAll sinks
      (Wait.course s.probe (s.accepting.map (· - since)) (s.clock - since))).moment :=
  (Wait.moment_course ..).symm

/-- So the verdicts that a launcher's wait can end with are justified as well. -/
theorem mem_verdicts_moment_iff {sinks : Sinks} {line : Option String} {past : List Happening} {s : State}
    (hserver : ∀ r, s.server = some r → r.Past sinks line past) (hpast : ∀ h ∈ past, h.KeepsBackground)
    (since : Nat) (v : Verdict) : v ∈ verdicts s.probe (s.moment since) ↔
      Justified sinks line s.server past
        (Wait.course s.probe (s.accepting.map (· - since)) (s.clock - since)) s.probe v := by
  rw [moment_eq sinks]
  exact Wait.mem_verdicts_iff hserver hpast (fun i hi => Wait.keepsBackground_of_mem_course hi) _

end AppLauncher.Launcher.State
