import AppLauncher.Proofs.Server.Handle

/-!
# How long a server has run

The watcher notes the time of the end once, and makes the outcome known only after that (`Timed`).  From the moment at
which the time is noted the uptime stands still, whatever happens later (`Timed.uptime_run`).  So it stands still for
whoever knows the outcome (`uptime_frozen`); only those who were told that nobody watches any more may find no time.
-/

namespace AppLauncher.Server

/-- Whether a watcher is still going to note the time of the end. -/
def Watcher.willNote : Watcher → Bool
  | waiting => true
  | killing => true
  | reaped _ => true
  | recorded _ => false
  | finished => false
  | gone => false

namespace Supervision

variable {s s' : Supervision} {e : Event} {es : List Event} {t clock : Nat}

/-- The time of the end lies between the start and now, is noted once, and stands there before the outcome is known. -/
structure Timed (s : Supervision) : Prop where
  started_le : s.startedAt ≤ s.clock
  noted_le : ∀ t, s.exitedAt = some t → s.startedAt ≤ t ∧ t ≤ s.clock
  unnoted : s.watcher.willNote = true → s.exitedAt = none
  recorded : ∀ o, s.watcher = .recorded o → s.exitedAt.isSome = true
  published : s.exit.isSome = true → s.exitedAt.isSome = true

theorem timed_start (clock : Nat) : (start clock).Timed :=
  ⟨Nat.le_refl _, by simp [start], fun _ => rfl, by simp [start], by simp [start]⟩

theorem uptime_of_exitedAt (h : s.exitedAt = some t) : s.uptime = t - s.startedAt := by
  rw [uptime, h, Option.getD_some]

namespace Effect

theorem startedAt_eq (h : Effect s e s') : s'.startedAt = s.startedAt := by cases h <;> rfl

theorem exit_isSome (h : Effect s e s') (hs : s.exit.isSome = true) : s'.exit.isSome = true := by
  cases h with
  | publishes o hw => rfl
  | _ => exact hs

theorem gone_of (h : Effect s e s') (hs : s.watcher = .gone) : s'.watcher = .gone := by
  cases h with
  | kills status hw hr hc => simp [hs] at hw
  | reaps status o hw hc ho => simp [hs] at hw
  | records o hw => simp [hs] at hw
  | publishes o hw => simp [hs] at hw
  | leaves hw => rfl
  | _ => exact hs

/-- A watcher is gone only because the background was dropped. -/
theorem gone_cases (h : Effect s e s') (hs : s'.watcher = .gone) : s.watcher = .gone ∨ e = .backgroundDropped := by
  cases h with
  | kills status hw hr hc => simp at hs
  | reaps status o hw hc ho => simp at hs
  | records o hw => simp at hs
  | publishes o hw => simp at hs
  | leaves hw => exact Or.inr rfl
  | _ => exact Or.inl hs

/-- A time that was noted stays: only a watcher that has noted none notes one. -/
theorem exitedAt_eq (h : Effect s e s') (hs : s.Timed) (ht : s.exitedAt = some t) : s'.exitedAt = some t := by
  cases h with
  | records o hw =>
    have hnone := hs.unnoted (by rw [hw]; rfl)
    simp [hnone] at ht
  | _ => exact ht

theorem timed (h : Effect s e s') (hs : s.Timed) : s'.Timed := by
  obtain ⟨hstarted, hnoted, hunnoted, hrecorded, hpublished⟩ := hs
  cases h with
  | time n =>
    refine ⟨Nat.le_add_right_of_le hstarted, fun t ht => ?_, hunnoted, hrecorded, hpublished⟩
    obtain ⟨hle, hclock⟩ := hnoted t ht
    exact ⟨hle, Nat.le_add_right_of_le hclock⟩
  | kills status hw hr hc =>
    have hnone := hunnoted (by rw [hw]; rfl)
    exact ⟨hstarted, hnoted, fun _ => hnone, by simp, hpublished⟩
  | reaps status o hw hc ho =>
    have hnone := hunnoted (by rcases hw with hw | hw <;> rw [hw] <;> rfl)
    exact ⟨hstarted, hnoted, fun _ => hnone, by simp, hpublished⟩
  | records o hw =>
    refine ⟨hstarted, fun t ht => ?_, by simp [Watcher.willNote], fun _ _ => rfl, fun _ => rfl⟩
    obtain rfl := Option.some.inj ht
    exact ⟨hstarted, Nat.le_refl _⟩
  | publishes o hw =>
    have hsome := hrecorded o hw
    exact ⟨hstarted, hnoted, by simp [Watcher.willNote], by simp, fun _ => hsome⟩
  | leaves hw => exact ⟨hstarted, hnoted, by simp [Watcher.willNote], by simp, hpublished⟩
  | _ => exact ⟨hstarted, hnoted, hunnoted, hrecorded, hpublished⟩

end Effect

/-! ### Whole runs -/

theorem Timed.run (h : s.Timed) (es : List Event) : (s.run es).Timed :=
  run_preserves (K := fun _ => True) (fun s e _ hs => (s.effect_step e).timed hs) (by simp) h

theorem startedAt_run (s : Supervision) (es : List Event) : (s.run es).startedAt = s.startedAt :=
  run_preserves (P := fun s' => s'.startedAt = s.startedAt) (K := fun _ => True)
    (fun s' e _ hs => (s'.effect_step e).startedAt_eq.trans hs) (by simp) rfl

theorem exit_isSome_run (h : s.exit.isSome = true) (es : List Event) : (s.run es).exit.isSome = true :=
  run_preserves (P := fun s => s.exit.isSome = true) (K := fun _ => True)
    (fun s e _ hs => (s.effect_step e).exit_isSome hs) (by simp) h

theorem gone_run (h : s.watcher = .gone) (es : List Event) : (s.run es).watcher = .gone :=
  run_preserves (P := fun s => s.watcher = .gone) (K := fun _ => True)
    (fun s e _ hs => (s.effect_step e).gone_of hs) (by simp) h

theorem mem_of_gone (h : ((start clock).run es).watcher = .gone) : .backgroundDropped ∈ es := by
  induction es using List.reverseRecOn with
  | nil => simp [run, start] at h
  | append_singleton es e ih =>
    rw [run_concat] at h
    rcases (effect_step ((start clock).run es) e).gone_cases h with hgone | rfl
    · exact List.mem_append_left _ (ih hgone)
    · simp

theorem Timed.exitedAt_run (h : s.Timed) (ht : s.exitedAt = some t) (es : List Event) :
    (s.run es).exitedAt = some t :=
  (run_preserves (P := fun s => s.Timed ∧ s.exitedAt = some t) (K := fun _ => True)
    (fun s e _ hs => ⟨(s.effect_step e).timed hs.1, (s.effect_step e).exitedAt_eq hs.1 hs.2⟩) (by simp) ⟨h, ht⟩).2

/-- Once the time of the end is noted, the uptime is the time from the start to it, however much time passes. -/
theorem Timed.uptime_run (h : s.Timed) (ht : s.exitedAt = some t) (es : List Event) :
    (s.run es).uptime = t - s.startedAt := by
  rw [uptime_of_exitedAt (h.exitedAt_run ht es), startedAt_run]

end Supervision

namespace Handle

variable {h : Handle} {a : Action} {as : List Action}

/-- Whoever was answered was told an outcome that is known, or that the watcher is gone. -/
def Informed (h : Handle) : Prop :=
  ∀ o, .answered o ∈ h.calls →
    h.server.exited.isSome = true ∨ h.server.supervision.watcher = .gone ∧ o = .unwatched

theorem informed_fresh (clock pid : Nat) (b : Program.Behaviour) (readyLine : Option String) :
    (fresh clock pid b readyLine).Informed := by
  simp [Informed, fresh]

theorem Informed.step (h' : h.Informed) (a : Action) : (h.step a).Informed := by
  intro o ho
  have hbefore : h.server.exited.isSome = true ∨ h.server.supervision.watcher = .gone ∧ o = .unwatched := by
    rcases mem_calls_step ho with hc | hc | hc | hc | ⟨o', hc, hawaited⟩
    · exact h' o hc
    · cases hc
    · cases hc
    · cases hc
    · obtain rfl := Inquiry.answered.inj hc
      rw [Running.awaited?, Supervision.awaited?] at hawaited
      split at hawaited
      · rename_i o' hexit
        exact Or.inl (by simp [Running.exited, hexit])
      · split at hawaited
        · rename_i hgone
          exact Or.inr ⟨hgone, (Option.some.inj hawaited).symm⟩
        · cases hawaited
  -- what a call was told before the action stays true of the server after it
  rw [Running.exited, supervision_step]
  exact hbefore.imp (fun hexit => Supervision.exit_isSome_run hexit _)
    (And.imp_left fun hgone => Supervision.gone_run hgone _)

theorem Informed.run (h' : h.Informed) (as : List Action) : (h.run as).Informed := by
  induction as generalizing h with
  | nil => exact h'
  | cons a as ih => exact ih (h'.step a)

/-- In whatever order calls on a handle, the steps of the watcher, the end of the process and time come, and whatever
is dropped: once an outcome is known, or a stop or a wait was answered, the time of the end is noted, unless the answer
was that nobody watches any more.  And from when it is noted, be the outcome known or not, the uptime is the time from
the start to it, now and in every later state. -/
theorem uptime_frozen (clock pid : Nat) (b : Program.Behaviour) (readyLine : Option String) (as bs : List Action) :
    let x := (fresh clock pid b readyLine).run as
    let y := x.run bs
    (x.server.exited.isSome = true ∨ (∃ o, .answered o ∈ x.calls ∧
        (.happens .backgroundDropped ∉ as ∨ o ≠ .unwatched)) →
      ∃ t, x.server.supervision.exitedAt = some t) ∧
    x.server.supervision.startedAt = clock ∧ y.server.supervision.startedAt = clock ∧
    ∀ t, x.server.supervision.exitedAt = some t → clock ≤ t ∧ t ≤ x.server.supervision.clock ∧
      x.server.supervision.uptime = t - clock ∧
      y.server.supervision.exitedAt = some t ∧ y.server.supervision.uptime = t - clock := by
  intro x y
  have hx : x.server.supervision = (Supervision.start clock).run (events as) := supervision_fresh_run ..
  have hy : y.server.supervision = x.server.supervision.run (events bs) := supervision_run x bs
  have htimed : x.server.supervision.Timed := hx ▸ (Supervision.timed_start clock).run (events as)
  have hstarted : x.server.supervision.startedAt = clock := by rw [hx, Supervision.startedAt_run]; rfl
  refine ⟨fun hknown => ?_, hstarted, ?_, fun t ht => ?_⟩
  · have hexit : x.server.exited.isSome = true := by
      rcases hknown with hexit | ⟨o, ho, hwatched⟩
      · exact hexit
      · rcases (informed_fresh clock pid b readyLine).run as o ho with hexit | ⟨hgone, hunwatched⟩
        · exact hexit
        · -- a watcher is gone only after it was dropped, so this answer is the one that is left out
          have hdropped : ((Supervision.start clock).run (events as)).watcher = .gone := hx ▸ hgone
          rcases mem_events (Supervision.mem_of_gone hdropped) with hmem | ⟨he, -⟩
          · exact absurd hunwatched (hwatched.resolve_left fun hnot => hnot hmem)
          · cases he
    exact Option.isSome_iff_exists.1 (htimed.published hexit)
  · rw [hy, Supervision.startedAt_run, hstarted]
  · obtain ⟨hle, hclock⟩ := htimed.noted_le t ht
    refine ⟨hstarted ▸ hle, hclock, ?_, ?_, ?_⟩
    · rw [Supervision.uptime_of_exitedAt ht, hstarted]
    · rw [hy]
      exact htimed.exitedAt_run ht (events bs)
    · rw [hy, htimed.uptime_run ht, hstarted]

/-- A process that ends 40 milliseconds after its start is noted 2 milliseconds later, and its uptime is 42
milliseconds for the one who was told its outcome, also a minute later and without the background. -/
theorem uptime_frozen_later :
    let as : List Action := [.waitExit, .happens (.tick 40), .happens (.childEnds (.code 0)),
      .happens .watcherReaps, .happens (.tick 2), .happens .watcherRecords, .happens (.tick 5),
      .happens .watcherPublishes, .answer 0]
    let bs : List Action := [.happens (.tick 60000), .happens .backgroundDropped, .stop]
    let x := (fresh 1000 7 ⟨[], none, 0⟩ none).run as
    (.answered (.exited 0) ∈ x.calls ∧ .happens .backgroundDropped ∉ as) ∧
      x.server.supervision.exitedAt = some 1042 ∧ (x.run bs).server.supervision.clock = 61047 ∧
      x.server.supervision.uptime = 42 ∧ (x.run bs).server.supervision.uptime = 42 := by
  intro as bs x
  obtain ⟨hnoted, -, -, hfrozen⟩ := uptime_frozen 1000 7 ⟨[], none, 0⟩ none as bs
  have hanswered : .answered (.exited 0) ∈ x.calls := by decide
  have hkept : .happens .backgroundDropped ∉ as := by decide
  obtain ⟨t, ht⟩ := hnoted (Or.inr ⟨_, hanswered, Or.inl hkept⟩)
  have htime : x.server.supervision.exitedAt = some 1042 := by decide
  obtain rfl : t = 1042 := Option.some.inj (ht.symm.trans htime)
  obtain ⟨-, -, huptime, -, hlater⟩ := hfrozen 1042 ht
  exact ⟨⟨hanswered, hkept⟩, htime, by decide, huptime, hlater⟩

end Handle

end AppLauncher.Server
