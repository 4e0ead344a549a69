import AppLauncher.Server.Running
import AppLauncher.Proofs.Server.Supervision

/-!
# How a server goes on

A server goes on by events of its supervision that drop neither its handle nor the background (`GoesOn`).  So its
watcher stays right, a request to stop stays heard, and an outcome that is known stays so.
-/

namespace AppLauncher.Server.Running

open AppLauncher.Output AppLauncher.Program

variable {r r' r'' : Running}

/-- A server goes on through any events but those that drop its handle or the background. -/
def GoesOn (r r' : Running) : Prop :=
  ∃ es : List Event, (∀ e ∈ es, e ≠ .handleDropped ∧ e ≠ .backgroundDropped) ∧
    r'.supervision = r.supervision.run es

/-- A server whose watcher is right and hears those who ask for a stop. -/
def Watched (r : Running) : Prop := r.supervision.Sound ∧ r.supervision.Hears

/-- A server whose process has ended, and of which the outcome that waiting gave is known. -/
def HasEnded (r : Running) : Prop := ∃ o, r.exited = some o ∧ r.supervision.HasLeft o

theorem watched_start (clock pid : Nat) (b : Behaviour) (readyLine : Option String) :
    (start clock pid b readyLine).Watched :=
  ⟨Supervision.sound_start clock, Supervision.hears_start clock⟩

theorem GoesOn.refl (r : Running) : r.GoesOn r := ⟨[], by simp, rfl⟩

theorem GoesOn.trans (h : r.GoesOn r') (h' : r'.GoesOn r'') : r.GoesOn r'' := by
  obtain ⟨es, hes, hr⟩ := h
  obtain ⟨es', hes', hr'⟩ := h'
  refine ⟨es ++ es', fun e he => (List.mem_append.1 he).elim (hes e) (hes' e), ?_⟩
  rw [hr', hr, Supervision.run_append]

/-- What one event after another preserves is preserved while the server goes on. -/
theorem GoesOn.preserves {P : Supervision → Prop}
    (hstep : ∀ s e, e ≠ .handleDropped → e ≠ .backgroundDropped → P s → P (s.step e))
    (h : r.GoesOn r') (hr : P r.supervision) : P r'.supervision := by
  obtain ⟨es, hes, hr'⟩ := h
  rw [hr']
  exact Supervision.run_preserves (fun s e he hs => hstep s e he.1 he.2 hs) hes hr

theorem GoesOn.watched (h : r.GoesOn r') (hr : r.Watched) : r'.Watched :=
  h.preserves (P := fun s => s.Sound ∧ s.Hears)
    (fun s e hhandle hbackground hs =>
      ⟨(s.effect_step e).sound hbackground hs.1, (s.effect_step e).hears hhandle hs.2⟩) hr

theorem GoesOn.requested (h : r.GoesOn r') (hr : r.supervision.requested = true) :
    r'.supervision.requested = true :=
  h.preserves (P := fun s => s.requested = true) (fun s e _ _ hs => (s.effect_step e).requested_eq hs) hr

theorem GoesOn.hasEnded (h : r.GoesOn r') (hw : r.Watched) (hr : r.HasEnded) : r'.HasEnded := by
  obtain ⟨o, hexit, -⟩ := hr
  have hall := h.preserves (P := fun s => s.Sound ∧ s.exit = some o)
    (fun s e _ hbackground hs =>
      ⟨(s.effect_step e).sound hbackground hs.1, (s.effect_step e).exit_eq hs.1 hs.2⟩) ⟨hw.1, hexit⟩
  exact ⟨o, hall.2, hall.1.hasLeft_of_exit hall.2⟩

theorem goesOn_askStop (r : Running) : r.GoesOn r.askStop.1 := ⟨[.stopAsked], by simp, rfl⟩

theorem requested_askStop (h : r.Watched) : r.askStop.1.supervision.requested = true := by
  have hasked : r.askStop.1.supervision.requested = (r.supervision.requested || r.supervision.canRequest) := rfl
  rw [hasked, Bool.or_eq_true]
  exact h.2.symm

theorem supervision_setForwarding (r : Running) (s : Stream) (f : Forwarding Capture) :
    (r.setForwarding s f).supervision = r.supervision := by
  cases s <;> rfl

end AppLauncher.Server.Running
