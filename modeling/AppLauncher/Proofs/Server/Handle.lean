import AppLauncher.Proofs.Server.Running

/-!
# Calls on the handle of a server

Any number of calls stop a server, wait for its end or look whether it has ended, while its process, its watcher and
those who call go on in any order, and while the handle may be dropped (`Handle`).  However the process ends, all of
them agree on one outcome, that of the status which the process has left (`lifecycle_agreement`).
-/

namespace AppLauncher.Server

/-- A call on the handle of a server, and what it has come to. -/
inductive Inquiry
  /-- A stop that was asked for, or a wait for the end, while the outcome is not known to it. -/
  | waiting
  | answered (o : Outcome)
  /-- A look at the outcome, which is over at once. -/
  | looked (o : Option Outcome)
  /-- A stop or a wait that was given up before it was answered. -/
  | abandoned
  deriving DecidableEq

/-- A server, and the calls on its handle in the order in which they were made. -/
structure Handle where
  server : Running
  calls : List Inquiry := []

namespace Handle

/-- What can come next: something happens to the server by itself or its handle is dropped, a call is made, or one of
the calls is answered or given up. -/
inductive Action
  | happens (e : Event)
  | stop
  | waitExit
  | exited
  | answer (i : Nat)
  | abandon (i : Nat)
  deriving DecidableEq

def fresh (clock pid : Nat) (b : Program.Behaviour) (readyLine : Option String) : Handle :=
  { server := .start clock pid b readyLine }

/-- The handle after an action; one that cannot come changes nothing.  A stop takes the request and sends it in one
step, since it does not wait in between. -/
def step (h : Handle) : Action → Handle
  | .happens e => { h with server := { h.server with supervision := h.server.supervision.step e } }
  | .stop => ⟨h.server.askStop.1, h.calls ++ [.waiting]⟩
  | .waitExit => { h with calls := h.calls ++ [.waiting] }
  | .exited => { h with calls := h.calls ++ [.looked h.server.exited] }
  | .answer i =>
    match h.calls[i]?, h.server.awaited? with
    | some .waiting, some o => { h with calls := h.calls.set i (.answered o) }
    | _, _ => h
  | .abandon i =>
    match h.calls[i]? with
    | some .waiting => { h with calls := h.calls.set i .abandoned }
    | _ => h

def run (h : Handle) (as : List Action) : Handle := as.foldl step h

namespace Action

def event? : Action → Option Event
  | happens e => some e
  | stop => some .stopAsked
  | _ => none

/-- An action as it comes where the system does not fail: stops are made by calls, waiting for the process gives its
status, and the background is not dropped. -/
def IsOrdinary : Action → Prop
  | happens .stopAsked => False
  | happens .backgroundDropped => False
  | happens (.waitFails _) => False
  | _ => True

end Action

def events (as : List Action) : List Event := as.filterMap Action.event?

/-! ### What the actions do -/

variable {h : Handle} {a : Action} {as bs : List Action} {o : Outcome}

theorem run_append (h : Handle) (as bs : List Action) : h.run (as ++ bs) = (h.run as).run bs :=
  List.foldl_append ..

/-- Answers and those who give up leave the server alone. -/
theorem supervision_step (h : Handle) (a : Action) :
    (h.step a).server.supervision = h.server.supervision.run a.event?.toList := by
  cases a with
  | answer i =>
    simp only [step]
    split <;> rfl
  | abandon i =>
    simp only [step]
    split <;> rfl
  | _ => rfl

theorem supervision_run (h : Handle) (as : List Action) :
    (h.run as).server.supervision = h.server.supervision.run (events as) := by
  induction as generalizing h with
  | nil => rfl
  | cons a as ih =>
    have hevents : events (a :: as) = a.event?.toList ++ events as := by
      cases ha : a.event? <;> simp [events, ha]
    rw [hevents, Supervision.run_append, ← supervision_step]
    exact ih (h.step a)

theorem mem_events {e : Event} (h : e ∈ events as) : .happens e ∈ as ∨ e = .stopAsked ∧ .stop ∈ as := by
  obtain ⟨a, ha, he⟩ := List.mem_filterMap.1 h
  cases a with
  | happens e' =>
    obtain rfl := Option.some.inj he
    exact Or.inl ha
  | stop =>
    obtain rfl := Option.some.inj he
    exact Or.inr ⟨rfl, ha⟩
  | _ => simp [Action.event?] at he

theorem ne_backgroundDropped_of_mem_events (has : ∀ a ∈ as, a.IsOrdinary) {e : Event} (h : e ∈ events as) :
    e ≠ .backgroundDropped := by
  rintro rfl
  rcases mem_events h with hmem | ⟨he, -⟩
  · exact (has _ hmem).elim
  · cases he

theorem ne_waitFails_of_mem_events (has : ∀ a ∈ as, a.IsOrdinary) {e : Event} (h : e ∈ events as) (f : Fault) :
    e ≠ .waitFails f := by
  rintro rfl
  rcases mem_events h with hmem | ⟨he, -⟩
  · exact (has _ hmem).elim
  · cases he

theorem mem_calls_step {c : Inquiry} (hc : c ∈ (h.step a).calls) :
    c ∈ h.calls ∨ c = .waiting ∨ c = .abandoned ∨ c = .looked h.server.exited ∨
      ∃ o, c = .answered o ∧ h.server.awaited? = some o := by
  have hconcat : ∀ c' : Inquiry, c ∈ h.calls ++ [c'] → c ∈ h.calls ∨ c = c' := by simp
  cases a with
  | happens e => exact Or.inl hc
  | stop => exact (hconcat _ hc).imp_right Or.inl
  | waitExit => exact (hconcat _ hc).imp_right Or.inl
  | exited => exact (hconcat _ hc).imp_right fun h => Or.inr (Or.inr (Or.inl h))
  | answer i =>
    simp only [step] at hc
    split at hc
    · rename_i o _ ho
      rcases List.mem_or_eq_of_mem_set hc with hc | rfl
      · exact Or.inl hc
      · exact Or.inr (Or.inr (Or.inr (Or.inr ⟨o, rfl, ho⟩)))
    · exact Or.inl hc
  | abandon i =>
    simp only [step] at hc
    split at hc
    · rcases List.mem_or_eq_of_mem_set hc with hc | rfl
      · exact Or.inl hc
      · exact Or.inr (Or.inr (Or.inl rfl))
    · exact Or.inl hc

theorem calls_answer {i : Nat} (hi : h.calls[i]? = some .waiting) (ho : h.server.awaited? = some o) :
    (h.step (.answer i)).calls[i]? = some (.answered o) := by
  have hlt : i < h.calls.length := (List.getElem?_eq_some_iff.1 hi).1
  simp only [step, hi, ho]
  exact List.getElem?_set_self hlt

/-! ### What stays true -/

/-- The watcher is right, and what calls were told is what was made known. -/
structure Agrees (h : Handle) : Prop where
  sound : h.server.supervision.Sound
  answered : ∀ o, .answered o ∈ h.calls → h.server.exited = some o
  looked : ∀ o, .looked (some o) ∈ h.calls → h.server.exited = some o

theorem agrees_fresh (clock pid : Nat) (b : Program.Behaviour) (readyLine : Option String) :
    (fresh clock pid b readyLine).Agrees :=
  ⟨Supervision.sound_start clock, by simp [fresh], by simp [fresh]⟩

theorem Agrees.exited_run (h' : h.Agrees) (has : ∀ a ∈ as, a.IsOrdinary) (ho : h.server.exited = some o) :
    (h.run as).server.exited = some o := by
  rw [Running.exited, supervision_run]
  exact h'.sound.exit_run (fun e he => ne_backgroundDropped_of_mem_events has he) ho

theorem Agrees.step (h' : h.Agrees) (ha : a.IsOrdinary) : (h.step a).Agrees := by
  have has : ∀ a' ∈ [a], a'.IsOrdinary := by simpa using ha
  have hkept : ∀ o, h.server.exited = some o → (h.step a).server.exited = some o :=
    fun o ho => h'.exited_run has ho
  refine ⟨?_, fun o ho => hkept o ?_, fun o ho => hkept o ?_⟩
  · have hsound := h'.sound.run fun e he => ne_backgroundDropped_of_mem_events has he
    rwa [← supervision_run] at hsound
  · rcases mem_calls_step ho with hc | hc | hc | hc | ⟨o', hc, hawaited⟩
    · exact h'.answered o hc
    · cases hc
    · cases hc
    · cases hc
    · obtain rfl := Inquiry.answered.inj hc
      rwa [Running.awaited?, h'.sound.awaited?_eq] at hawaited
  · rcases mem_calls_step ho with hc | hc | hc | hc | ⟨o', hc, -⟩
    · exact h'.looked o hc
    · cases hc
    · cases hc
    · exact (Inquiry.looked.inj hc).symm
    · cases hc

theorem Agrees.run (h' : h.Agrees) (has : ∀ a ∈ as, a.IsOrdinary) : (h.run as).Agrees := by
  induction as generalizing h with
  | nil => exact h'
  | cons a as ih => exact ih (h'.step (has a (by simp))) fun a' ha' => has a' (by simp [ha'])

/-! ### Runs from the start -/

section Fresh

variable {clock pid : Nat} {b : Program.Behaviour} {readyLine : Option String}

theorem supervision_fresh_run (clock pid : Nat) (b : Program.Behaviour) (readyLine : Option String)
    (as : List Action) :
    ((fresh clock pid b readyLine).run as).server.supervision = (Supervision.start clock).run (events as) :=
  supervision_run _ as

/-- What was made known is the outcome of the status that the process has left. -/
theorem status_of_exited (has : ∀ a ∈ as, a.IsOrdinary)
    (ho : ((fresh clock pid b readyLine).run as).server.exited = some o) :
    ∃ status, ((fresh clock pid b readyLine).run as).server.supervision.child = .ended status ∧
      o = .ofWait (.ok status) := by
  rw [Running.exited, supervision_fresh_run] at ho
  rw [supervision_fresh_run]
  refine (Supervision.exact_start clock).run (fun e he => ?_) o (Or.inr (Or.inr ho))
  exact ne_waitFails_of_mem_events has he

/-- The status that a process has left is its own, or it was killed. -/
theorem mem_or_killed_of_ended {status : Status}
    (hc : ((fresh clock pid b readyLine).run as).server.supervision.child = .ended status) :
    .happens (.childEnds status) ∈ as ∨
      status = .killed ∧ 0 < ((fresh clock pid b readyLine).run as).server.supervision.kills := by
  rw [supervision_fresh_run] at hc ⊢
  refine (Supervision.mem_or_killed_of_ended hc).imp_left fun hmem => ?_
  rcases mem_events hmem with hmem | ⟨he, -⟩
  · exact hmem
  · cases he

theorem kills_le_one (clock pid : Nat) (b : Program.Behaviour) (readyLine : Option String) (as : List Action) :
    ((fresh clock pid b readyLine).run as).server.supervision.kills ≤ 1 := by
  rw [supervision_fresh_run]
  exact (Supervision.killedOnce_run clock _).kills_le

theorem stop_mem_of_kills (has : ∀ a ∈ as, a.IsOrdinary)
    (hk : 0 < ((fresh clock pid b readyLine).run as).server.supervision.kills) : .stop ∈ as := by
  rw [supervision_fresh_run] at hk
  have hrequested := (Supervision.killedOnce_run clock _).requested hk
  rcases mem_events (Supervision.mem_of_requested hrequested) with hmem | ⟨-, hmem⟩
  · exact (has _ hmem).elim
  · exact hmem

theorem requested_of_stop_mem (hstop : .stop ∈ as) (hdropped : .happens .handleDropped ∉ as) :
    ((fresh clock pid b readyLine).run as).server.supervision.requested = true := by
  rw [supervision_fresh_run]
  refine Supervision.requested_of_mem (fun hmem => ?_) (List.mem_filterMap.2 ⟨_, hstop, rfl⟩)
  rcases mem_events hmem with hmem | ⟨he, -⟩
  · exact hdropped hmem
  · cases he

end Fresh

/-! ### Agreement -/

/-- What the watcher does by itself. -/
def watching : List Action :=
  [.happens .watcherKills, .happens .watcherReaps, .happens .watcherRecords, .happens .watcherPublishes]

/-- Whoever waits is answered, by steps of the watcher alone, once a stop was heard or the process has ended. -/
theorem Agrees.answered_of_waiting (h' : h.Agrees) {i : Nat} (hi : h.calls[i]? = some .waiting)
    (hend : h.server.supervision.requested = true ∨ ∃ status, h.server.supervision.child = .ended status) :
    ∃ o, (h.run (watching ++ [.answer i])).calls[i]? = some (.answered o) := by
  obtain ⟨o, ho⟩ := h'.sound.exit_settle hend
  have hcalls : (h.run watching).calls[i]? = some .waiting := hi
  have hawaited : (h.run watching).server.awaited? = some o := by
    have hsettle : (h.run watching).server.supervision = h.server.supervision.settle := rfl
    rw [Running.awaited?, hsettle, Supervision.awaited?, ho]
  refine ⟨o, ?_⟩
  rw [run_append]
  exact calls_answer hcalls hawaited

/-- However a process behaves and in whatever order stops, waits, looks, the watcher and the end of the process come,
also when the handle is dropped or those who wait give up: the outcome is made known at most once, never changes and is
that of the status which the process has left, its exit code or that a signal has ended it; whoever is answered or sees
an outcome gets that one, and nobody is told that the watcher is gone; at most one request to kill is sent and at most
one kill happens, and only if a stop was called.  Whoever waits can be answered once a stop was called on a handle that
is there, or the process has ended. -/
theorem lifecycle_agreement (clock pid : Nat) (b : Program.Behaviour) (readyLine : Option String)
    (as bs : List Action) (has : ∀ a ∈ as ++ bs, a.IsOrdinary) :
    let x := (fresh clock pid b readyLine).run as
    let y := x.run bs
    (Supervision.start clock).tally Supervision.publishes (events (as ++ bs)) ≤ 1 ∧
    (∀ o, x.server.exited = some o → y.server.exited = some o ∧ ∃ status,
      x.server.supervision.child = .ended status ∧ o = .ofWait (.ok status) ∧
      (∀ n, status = .code n → o = .exited n) ∧ (∀ n, status = .signal n → o = .terminated) ∧
      (.happens (.childEnds status) ∈ as ∨ status = .killed ∧ 0 < x.server.supervision.kills)) ∧
    (∀ o, .answered o ∈ y.calls → y.server.exited = some o ∧ o ≠ .unwatched) ∧
    (∀ o, .looked o ∈ y.calls → o = none ∨ o = y.server.exited) ∧
    (Supervision.start clock).tally Supervision.sends (events (as ++ bs)) ≤ 1 ∧
    y.server.supervision.kills ≤ 1 ∧
    (0 < x.server.supervision.kills → .stop ∈ as) ∧
    (∀ i, x.calls[i]? = some .waiting →
      (.stop ∈ as ∧ .happens .handleDropped ∉ as) ∨ (∃ status, x.server.supervision.child = .ended status) →
      ∃ o, (x.run (watching ++ [.answer i])).calls[i]? = some (.answered o)) := by
  intro x y
  have has' : ∀ a ∈ as, a.IsOrdinary := fun a ha => has a (List.mem_append_left _ ha)
  have hbs : ∀ a ∈ bs, a.IsOrdinary := fun a ha => has a (List.mem_append_right _ ha)
  have hx : x.Agrees := (agrees_fresh clock pid b readyLine).run has'
  have hy : y.Agrees := hx.run hbs
  have hrun : y = (fresh clock pid b readyLine).run (as ++ bs) := (run_append _ as bs).symm
  refine ⟨Supervision.tally_publishes_le_one _ _, fun o ho => ?_, fun o ho => ?_, fun o ho => ?_,
    Supervision.tally_sends_le_one _ _, hrun ▸ kills_le_one .., stop_mem_of_kills has', fun i hi hend => ?_⟩
  · obtain ⟨status, hchild, rfl⟩ := status_of_exited has' ho
    refine ⟨hx.exited_run hbs ho, status, hchild, rfl, ?_, ?_, mem_or_killed_of_ended hchild⟩
    · rintro n rfl
      rfl
    · rintro n rfl
      rfl
  · have hexit := hy.answered o ho
    -- an outcome that was made known is that of a status, and no status has that of a watcher that is gone
    obtain ⟨status, -, rfl⟩ := status_of_exited has (hrun ▸ hexit)
    exact ⟨hexit, by cases status <;> simp [Outcome.ofWait, Outcome.unwatched]⟩
  · cases o with
    | none => exact Or.inl rfl
    | some o => exact Or.inr (hy.looked o ho).symm
  · exact hx.answered_of_waiting hi (hend.imp_left fun ⟨hstop, hdropped⟩ => requested_of_stop_mem hstop hdropped)

/-- The process ends with code 3 between two stops, and the watcher kills it nevertheless; both stops and the one who
waits are told the code. -/
theorem lifecycle_agreement_race :
    let as : List Action := [.stop, .waitExit, .happens (.childEnds (.code 3)), .stop, .happens .watcherKills,
      .happens .watcherReaps, .happens .watcherRecords, .happens .watcherPublishes, .answer 0]
    let bs : List Action := [.exited, .answer 1, .answer 2, .happens .handleDropped]
    let x := (fresh 0 7 ⟨[], none, 0⟩ none).run as
    (∀ a ∈ as ++ bs, a.IsOrdinary) ∧ x.server.exited = some (.exited 3) ∧
      x.server.supervision.child = .ended (.code 3) ∧ (x.run bs).server.exited = some (.exited 3) ∧
      (x.run bs).server.supervision.kills ≤ 1 ∧
      (x.run bs).calls = [.answered (.exited 3), .answered (.exited 3), .answered (.exited 3),
        .looked (some (.exited 3))] := by
  intro as bs x
  have has : ∀ a ∈ as ++ bs, a.IsOrdinary := by
    simp [as, bs, Action.IsOrdinary]
  obtain ⟨-, hexit, -, -, -, hkills, -, -⟩ := lifecycle_agreement 0 7 ⟨[], none, 0⟩ none as bs has
  obtain ⟨hlater, status, hchild, -, -, -, hown⟩ := hexit (.exited 3) (by decide)
  -- the list has only one status that the process can have left of itself
  have hstatus : status = .code 3 := by
    rcases hown with hmem | ⟨rfl, -⟩
    · simpa [as] using hmem
    · exact Child.ended.inj (hchild.symm.trans (by decide))
  exact ⟨has, by decide, hstatus ▸ hchild, hlater, hkills, by decide⟩

end Handle

end AppLauncher.Server
