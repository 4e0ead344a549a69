import AppLauncher.Server.Supervision
import Mathlib.Data.List.Induction

/-!
# What the watcher knows

The watcher makes known only what waiting for the process gave, and only after the process has ended (`Sound`).  This
holds along every run in which the background is not dropped; where waiting does not fail either, the outcome is that of
the status which the process has left (`Exact`).  While the handle is there as well, whoever asks for a stop is heard
(`Hears`), and the watcher then goes on to the end by itself (`Sound.exit_settle`).  Along any run at most one request
to kill is sent, the process is killed at most once and only after a request, and the outcome is made known at most
once.
-/

namespace AppLauncher.Server

/-- The outcomes that waiting can give for a process that has left a status: that of the status, or that waiting has
failed. -/
inductive Status.Gives (status : Status) : Outcome → Prop
  | status : Gives status (.ofWait (.ok status))
  | fault (f : Fault) : Gives status (.ofWait (.error f))

namespace Supervision

/-- All that an event can do to a supervision. -/
inductive Effect (s : Supervision) : Event → Supervision → Prop
  | nothing (e : Event) : Effect s e s
  | time (n : Nat) : Effect s (.tick n) { s with clock := s.clock + n }
  | ends (status : Status) (hc : s.child = .running) :
      Effect s (.childEnds status) { s with child := .ended status }
  | asks : Effect s .stopAsked
      { s with stops := s.stops + 1, canRequest := false, requested := s.requested || s.canRequest }
  | drops : Effect s .handleDropped { s with canRequest := false }
  | kills (status : Status) (hw : s.watcher = .waiting) (hr : s.requested = true)
      (hc : s.child = .ended status ∨ s.child = .running ∧ status = .killed) :
      Effect s .watcherKills { s with child := .ended status, watcher := .killing, kills := s.kills + 1 }
  | reaps {e : Event} (status : Status) (o : Outcome) (hw : s.watcher = .waiting ∨ s.watcher = .killing)
      (hc : s.child = .ended status)
      (ho : e = .watcherReaps ∧ o = .ofWait (.ok status) ∨ ∃ f, e = .waitFails f ∧ o = .ofWait (.error f)) :
      Effect s e { s with watcher := .reaped o }
  | records (o : Outcome) (hw : s.watcher = .reaped o) :
      Effect s .watcherRecords { s with watcher := .recorded o, exitedAt := some s.clock }
  | publishes (o : Outcome) (hw : s.watcher = .recorded o) :
      Effect s .watcherPublishes { s with watcher := .finished, exit := some o }
  | leaves (hw : s.watcher ≠ .finished) : Effect s .backgroundDropped { s with watcher := .gone }

/-- Whatever waiting gives, the watcher gets it where it waits for a process that has ended, and nowhere else. -/
private theorem effect_waited {s : Supervision} {e : Event} {result : Status → Except Fault Status}
    (hstep : s.step? e = s.waited? result)
    (hgot : ∀ status, e = .watcherReaps ∧ Outcome.ofWait (result status) = .ofWait (.ok status) ∨
      ∃ f, e = .waitFails f ∧ Outcome.ofWait (result status) = .ofWait (.error f)) : Effect s e (s.step e) := by
  rw [step, hstep, waited?]
  split
  · rename_i status hw hc
    exact .reaps status _ (Or.inl hw) hc (hgot status)
  · rename_i status hw hc
    exact .reaps status _ (Or.inr hw) hc (hgot status)
  · exact .nothing e

theorem effect_step (s : Supervision) (e : Event) : Effect s e (s.step e) := by
  cases e with
  | tick n => exact .time n
  | childEnds status =>
    cases hc : s.child with
    | running => simpa [step, step?, hc] using Effect.ends status hc
    | ended _ => simpa [step, step?, hc] using Effect.nothing (.childEnds status)
  | stopAsked => exact .asks
  | handleDropped => exact .drops
  | watcherKills =>
    by_cases h : s.watcher = .waiting ∧ s.requested = true
    · obtain ⟨hw, hr⟩ := h
      cases hc : s.child with
      | running => simpa [step, step?, hw, hr, hc] using Effect.kills .killed hw hr (Or.inr ⟨hc, rfl⟩)
      | ended status => simpa [step, step?, hw, hr, hc] using Effect.kills status hw hr (Or.inl hc)
    · have : s.step .watcherKills = s := by
        cases hw : s.watcher <;> cases hr : s.requested <;> simp_all [step, step?]
      rw [this]
      exact .nothing _
  | watcherReaps => exact effect_waited rfl fun _ => Or.inl ⟨rfl, rfl⟩
  | waitFails f => exact effect_waited rfl fun _ => Or.inr ⟨f, rfl, rfl⟩
  | watcherRecords =>
    cases hw : s.watcher with
    | reaped o => simpa [step, step?, hw] using Effect.records o hw
    | _ => simpa [step, step?, hw] using Effect.nothing .watcherRecords
  | watcherPublishes =>
    cases hw : s.watcher with
    | recorded o => simpa [step, step?, hw] using Effect.publishes o hw
    | _ => simpa [step, step?, hw] using Effect.nothing .watcherPublishes
  | backgroundDropped =>
    by_cases hw : s.watcher = .finished
    · simpa [step, step?, hw] using Effect.nothing .backgroundDropped
    · have : s.step .backgroundDropped = { s with watcher := .gone } := by
        cases hw' : s.watcher <;> simp_all [step, step?]
      rw [this]
      exact .leaves hw

/-! ### What stays true -/

variable {s t : Supervision} {e : Event} {o : Outcome}

/-- The process has ended, and an outcome is one that waiting for it can give. -/
def HasLeft (s : Supervision) (o : Outcome) : Prop := ∃ status, s.child = .ended status ∧ status.Gives o

/-- What is true of the process at each point that the watcher can have come to. -/
def Sound (s : Supervision) : Prop :=
  match s.watcher with
  | .waiting => s.exit = none
  | .killing => s.exit = none ∧ ∃ status, s.child = .ended status
  | .reaped o => s.exit = none ∧ s.HasLeft o
  | .recorded o => s.exit = none ∧ s.HasLeft o
  | .finished => ∃ o, s.exit = some o ∧ s.HasLeft o
  | .gone => False

/-- The watcher has made an outcome, or made it known. -/
def Knows (s : Supervision) (o : Outcome) : Prop :=
  s.watcher = .reaped o ∨ s.watcher = .recorded o ∨ s.exit = some o

/-- Whatever the watcher knows is the outcome of the status that the process has left. -/
def Exact (s : Supervision) : Prop := ∀ o, s.Knows o → ∃ status, s.child = .ended status ∧ o = .ofWait (.ok status)

/-- Whether a stop that is asked for now would reach the watcher, or one has already. -/
def Hears (s : Supervision) : Prop := s.canRequest = true ∨ s.requested = true

/-- The watcher has made the outcome known, or it is gone. -/
def HasDone (s : Supervision) : Prop := s.watcher = .finished ∨ s.watcher = .gone

/-- A watcher kills once, when it has waited, and only if it was asked to. -/
structure KilledOnce (s : Supervision) : Prop where
  kills_le : s.kills ≤ 1
  kills_of_waiting : s.watcher = .waiting → s.kills = 0
  requested : 0 < s.kills → s.requested = true

theorem sound_start (clock : Nat) : (start clock).Sound := rfl

theorem hears_start (clock : Nat) : (start clock).Hears := Or.inl rfl

theorem exact_start (clock : Nat) : (start clock).Exact := by
  simp [Exact, Knows, start]

namespace Effect

theorem requested_eq (h : Effect s e t) (hr : s.requested = true) : t.requested = true := by
  cases h with
  | asks => simp [hr]
  | _ => exact hr

/-- Only a dropped handle makes the watcher deaf. -/
theorem hears (h : Effect s e t) (he : e ≠ .handleDropped) (hs : s.Hears) : t.Hears := by
  cases h with
  | asks => simpa [Hears, or_comm] using hs
  | drops => exact absurd rfl he
  | _ => exact hs

theorem sound (h : Effect s e t) (he : e ≠ .backgroundDropped) (hs : s.Sound) : t.Sound := by
  unfold Sound at hs ⊢
  cases h with
  | ends status hc =>
    -- the watcher knows of no end while the process runs, so it is still waiting
    cases hw : s.watcher <;> simp_all [HasLeft]
  | kills status hw hr hc => simp_all
  | reaps status o hw hc ho =>
    have hexit : s.exit = none := by rcases hw with hw | hw <;> simp_all
    refine ⟨hexit, status, hc, ?_⟩
    rcases ho with ⟨-, rfl⟩ | ⟨f, -, rfl⟩
    · exact .status
    · exact .fault f
  | records o hw =>
    rw [hw] at hs
    exact hs
  | publishes o hw =>
    rw [hw] at hs
    exact ⟨o, rfl, hs.2⟩
  | leaves hw => exact absurd rfl he
  | _ => exact hs

/-- Where waiting does not fail, what the watcher gets is the status. -/
theorem exact (h : Effect s e t) (he : ∀ f, e ≠ .waitFails f) (hs : s.Exact) : t.Exact := by
  intro o ho
  cases h with
  | ends status hc =>
    obtain ⟨status', hc', -⟩ := hs o ho
    simp [hc] at hc'
  | kills status hw hr hc =>
    have hexit : s.exit = some o := by simpa [Knows] using ho
    obtain ⟨status', hc', rfl⟩ := hs o (Or.inr (Or.inr hexit))
    obtain rfl : status' = status := by simpa [hc'] using hc
    exact ⟨status', rfl, rfl⟩
  | reaps status o' hw hc ho' =>
    rcases ho with ho | ho | ho
    · obtain rfl := Watcher.reaped.inj ho
      rcases ho' with ⟨-, rfl⟩ | ⟨f, rfl, -⟩
      · exact ⟨status, hc, rfl⟩
      · exact absurd rfl (he f)
    · cases ho
    · exact hs o (Or.inr (Or.inr ho))
  | records o' hw =>
    rcases ho with ho | ho | ho
    · cases ho
    · exact hs o (Or.inl (hw.trans (congrArg _ (Watcher.recorded.inj ho))))
    · exact hs o (Or.inr (Or.inr ho))
  | publishes o' hw =>
    rcases ho with ho | ho | ho
    · cases ho
    · cases ho
    · exact hs o (Or.inr (Or.inl (hw.trans (congrArg _ (Option.some.inj ho)))))
  | leaves hw =>
    rcases ho with ho | ho | ho
    · cases ho
    · cases ho
    · exact hs o (Or.inr (Or.inr ho))
  | _ => exact hs o ho

theorem exit_eq (h : Effect s e t) (hs : s.Sound) (ho : s.exit = some o) : t.exit = some o := by
  cases h with
  | publishes o' hw => simp [Sound, hw, ho] at hs
  | _ => exact ho

/-- A process that has ended had ended before, ends of itself or is killed. -/
theorem child_cases {status : Status} (h : Effect s e t) (hc : t.child = .ended status) :
    s.child = .ended status ∨ e = .childEnds status ∨ status = .killed ∧ 0 < t.kills := by
  cases h with
  | ends status' hrun =>
    obtain rfl := Child.ended.inj hc
    exact Or.inr (Or.inl rfl)
  | kills status' hw hr hend =>
    obtain rfl := Child.ended.inj hc
    rcases hend with hend | ⟨-, hkilled⟩
    · exact Or.inl hend
    · exact Or.inr (Or.inr ⟨hkilled, Nat.succ_pos _⟩)
  | _ => exact Or.inl hc

theorem kills_le (h : Effect s e t) : s.kills ≤ t.kills := by
  cases h with
  | kills status hw hr hc => exact Nat.le_succ _
  | _ => exact Nat.le_refl _

theorem requested_cases (h : Effect s e t) (hr : t.requested = true) : s.requested = true ∨ e = .stopAsked := by
  cases h with
  | asks => exact Or.inr rfl
  | _ => exact Or.inl hr

theorem canRequest_of (h : Effect s e t) (ht : t.canRequest = true) : s.canRequest = true := by
  cases h with
  | asks => simp at ht
  | drops => simp at ht
  | _ => exact ht

theorem hasDone (h : Effect s e t) (hs : s.HasDone) : t.HasDone := by
  unfold HasDone at hs ⊢
  cases h with
  | leaves hw => exact Or.inr rfl
  | kills status hw hr hc => simp [hw] at hs
  | reaps status o hw hc ho => rcases hw with hw | hw <;> simp [hw] at hs
  | records o hw => simp [hw] at hs
  | publishes o hw => exact Or.inl rfl
  | _ => exact hs

theorem killedOnce (h : Effect s e t) (hs : s.KilledOnce) : t.KilledOnce := by
  obtain ⟨hle, hwaiting, hrequested⟩ := hs
  cases h with
  | asks => exact ⟨hle, hwaiting, fun hk => by simp [hrequested hk]⟩
  | kills status hw hr hc => exact ⟨by simp [hwaiting hw], by simp, fun _ => hr⟩
  | reaps status o hw hc ho => exact ⟨hle, by simp, hrequested⟩
  | records o hw => exact ⟨hle, by simp, hrequested⟩
  | publishes o hw => exact ⟨hle, by simp, hrequested⟩
  | leaves hw => exact ⟨hle, by simp, hrequested⟩
  | _ => exact ⟨hle, hwaiting, hrequested⟩

end Effect

theorem killedOnce_start (clock : Nat) : (start clock).KilledOnce := ⟨Nat.zero_le 1, fun _ => rfl, by simp [start]⟩

/-- The process has ended, and what was made known is what waiting for it gave. -/
theorem Sound.hasLeft_of_exit (h : s.Sound) (ho : s.exit = some o) : s.HasLeft o := by
  unfold Sound at h
  cases hw : s.watcher <;> simp_all

/-- Those who wait get nothing but the outcome that was made known. -/
theorem Sound.awaited?_eq (h : s.Sound) : s.awaited? = s.exit := by
  unfold awaited?
  cases hexit : s.exit with
  | some o => rfl
  | none =>
    have : s.watcher ≠ .gone := by
      intro hw
      simp [Sound, hw] at h
    simp [this]

/-- After a request, or once the process has ended, the watcher goes on by itself until the outcome is known. -/
theorem Sound.exit_settle (h : s.Sound) (hr : s.requested = true ∨ ∃ status, s.child = .ended status) :
    ∃ o, s.settle.exit = some o := by
  unfold Sound at h
  cases hw : s.watcher with
  | waiting =>
    rcases hr with hr | ⟨status, hc⟩
    · cases hc : s.child <;> simp [settle, run, step, step?, waited?, hw, hr, hc]
    · cases hr : s.requested <;> simp [settle, run, step, step?, waited?, hw, hr, hc]
  | killing =>
    rw [hw] at h
    obtain ⟨hexit, status, hc⟩ := h
    simp [settle, run, step, step?, waited?, hw, hc]
  | reaped o => simp [settle, run, step, step?, waited?, hw]
  | recorded o => simp [settle, run, step, step?, waited?, hw]
  | finished =>
    rw [hw] at h
    obtain ⟨o, hexit, -⟩ := h
    simp [settle, run, step, step?, waited?, hw, hexit]
  | gone => simp [hw] at h

/-! ### Whole runs -/

theorem run_append (s : Supervision) (es fs : List Event) : s.run (es ++ fs) = (s.run es).run fs :=
  List.foldl_append ..

theorem run_concat (s : Supervision) (es : List Event) (e : Event) : s.run (es ++ [e]) = (s.run es).step e :=
  run_append s es [e]

/-- What one event after another preserves is preserved by a run. -/
theorem run_preserves {P : Supervision → Prop} {K : Event → Prop}
    (hstep : ∀ s e, K e → P s → P (s.step e)) {es : List Event} (hes : ∀ e ∈ es, K e) (hs : P s) :
    P (s.run es) := by
  induction es generalizing s with
  | nil => exact hs
  | cons e es ih => exact ih (fun e' he' => hes e' (by simp [he'])) (hstep s e (hes e (by simp)) hs)

theorem Sound.run (h : s.Sound) {es : List Event} (hes : ∀ e ∈ es, e ≠ .backgroundDropped) : (s.run es).Sound :=
  run_preserves (fun s e he hs => (s.effect_step e).sound he hs) hes h

theorem Sound.exit_run (h : s.Sound) {es : List Event} (hes : ∀ e ∈ es, e ≠ .backgroundDropped)
    (ho : s.exit = some o) : (s.run es).exit = some o :=
  (run_preserves (P := fun s => s.Sound ∧ s.exit = some o)
    (fun s e he hs => ⟨(s.effect_step e).sound he hs.1, (s.effect_step e).exit_eq hs.1 hs.2⟩) hes ⟨h, ho⟩).2

theorem Exact.run (h : s.Exact) {es : List Event} (hes : ∀ e ∈ es, ∀ f, e ≠ .waitFails f) : (s.run es).Exact :=
  run_preserves (fun s e he hs => (s.effect_step e).exact he hs) hes h

theorem mem_or_killed_of_ended {clock : Nat} {es : List Event} {status : Status}
    (h : ((start clock).run es).child = .ended status) :
    .childEnds status ∈ es ∨ status = .killed ∧ 0 < ((start clock).run es).kills := by
  induction es using List.reverseRecOn with
  | nil => simp [run, start] at h
  | append_singleton es e ih =>
    rw [run_concat] at h ⊢
    have heffect := effect_step ((start clock).run es) e
    rcases heffect.child_cases h with hc | rfl | hkilled
    · rcases ih hc with hmem | ⟨hstatus, hk⟩
      · exact Or.inl (List.mem_append_left _ hmem)
      · exact Or.inr ⟨hstatus, Nat.lt_of_lt_of_le hk heffect.kills_le⟩
    · exact Or.inl (by simp)
    · exact Or.inr hkilled

theorem mem_of_requested {clock : Nat} {es : List Event} (h : ((start clock).run es).requested = true) :
    .stopAsked ∈ es := by
  induction es using List.reverseRecOn with
  | nil => simp [run, start] at h
  | append_singleton es e ih =>
    rw [run_concat] at h
    rcases (effect_step ((start clock).run es) e).requested_cases h with hr | rfl
    · exact List.mem_append_left _ (ih hr)
    · simp

/-- While the handle is there, whoever asks for a stop is heard. -/
theorem requested_of_mem {clock : Nat} {es : List Event} (hes : .handleDropped ∉ es) (h : .stopAsked ∈ es) :
    ((start clock).run es).requested = true := by
  obtain ⟨before, after, rfl⟩ := List.append_of_mem h
  have hhears : ((start clock).run before).Hears :=
    run_preserves (K := (· ≠ .handleDropped)) (fun s e he hs => (s.effect_step e).hears he hs)
      (fun e he h => hes (by simp [h ▸ he])) (hears_start clock)
  have hasked : (((start clock).run before).step .stopAsked).requested = true := by
    simpa [step, step?, Hears, or_comm] using hhears
  have hrun : (start clock).run (before ++ .stopAsked :: after) =
      (((start clock).run before).step .stopAsked).run after := run_append ..
  rw [hrun]
  exact run_preserves (K := fun _ => True) (fun s e _ hs => (s.effect_step e).requested_eq hs) (by simp) hasked

/-- The process is killed at most once, and only after a request. -/
theorem killedOnce_run (clock : Nat) (es : List Event) : ((start clock).run es).KilledOnce :=
  run_preserves (K := fun _ => True) (fun s e _ hs => (s.effect_step e).killedOnce hs) (by simp)
    (killedOnce_start clock)

/-! ### Counting -/

/-- How many events of a run come in a state that they fit. -/
def tally (fits : Supervision → Event → Bool) (s : Supervision) : List Event → Nat
  | [] => 0
  | e :: es => (if fits s e then 1 else 0) + tally fits (s.step e) es

/-- Whether an event sends the handle's request to kill. -/
def sends (s : Supervision) (e : Event) : Bool := e == .stopAsked && s.canRequest

/-- Whether an event makes the outcome known. -/
def publishes (s : Supervision) (e : Event) : Bool := e == .watcherPublishes && (s.step? e).isSome

/-- Events that need what they take away, and that never comes back, fit at most once. -/
theorem tally_le_one {fits : Supervision → Event → Bool} (P : Supervision → Prop)
    (hfits : ∀ s e, fits s e = true → P s ∧ ¬ P (s.step e)) (hback : ∀ s e, P (s.step e) → P s)
    (s : Supervision) (es : List Event) : s.tally fits es ≤ 1 ∧ (¬ P s → s.tally fits es = 0) := by
  induction es generalizing s with
  | nil => simp [tally]
  | cons e es ih =>
    obtain ⟨hle, hzero⟩ := ih (s.step e)
    rw [tally]
    by_cases h : fits s e = true
    · obtain ⟨hp, hnot⟩ := hfits s e h
      have := hzero hnot
      exact ⟨by simp [h, this], fun hs => absurd hp hs⟩
    · refine ⟨by simpa [h] using hle, fun hs => ?_⟩
      simpa [h] using hzero fun hstep => hs (hback s e hstep)

theorem tally_sends_le_one (s : Supervision) (es : List Event) : s.tally sends es ≤ 1 := by
  refine (tally_le_one (fun s => s.canRequest = true) (fun s e h => ?_) (fun s e h => ?_) s es).1
  · obtain ⟨rfl, hs⟩ : e = .stopAsked ∧ s.canRequest = true := by simpa [sends] using h
    exact ⟨hs, by simp [step, step?]⟩
  · exact (s.effect_step e).canRequest_of h

theorem tally_publishes_le_one (s : Supervision) (es : List Event) : s.tally publishes es ≤ 1 := by
  refine (tally_le_one (fun s => ¬ s.HasDone) (fun s e h => ?_) (fun s e h hs => ?_) s es).1
  · obtain ⟨rfl, hsome⟩ : e = .watcherPublishes ∧ (s.step? e).isSome := by simpa [publishes] using h
    cases hw : s.watcher with
    | recorded o => simp [HasDone, step, step?, hw]
    | _ => simp [step?, hw] at hsome
  · exact h ((s.effect_step e).hasDone hs)

end Supervision

end AppLauncher.Server
