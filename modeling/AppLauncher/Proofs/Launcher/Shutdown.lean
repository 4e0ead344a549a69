import AppLauncher.Proofs.Launcher.Background
import Mathlib.Logic.Relation

/-!
# Stops, joins and shutdowns, step by step

For each call what is known at each point that it can have come to (`Holds`).  A step of a call keeps it, and so
does the background.  A call that has not returned can go on, at once or after the background alone has gone on
(`CanGo`), and each of its steps brings it nearer to its end (`rank`).
-/

namespace AppLauncher.Launcher

open AppLauncher.Server

variable {s t : State}

/-- What a part of a call leaves of a launcher; it does not call the window. -/
structure Leaves (s t : State) : Prop where
  carries : s.Carries t
  calls : t.calls = s.calls

theorem Leaves.refl (s : State) : Leaves s s := ⟨.refl s, rfl⟩

theorem Background.leaves (h : Background s t) : Leaves s t := ⟨h.carries, h.calls_eq⟩

theorem leaves_say (s : State) (lines : List Log.Line) : Leaves s (s.say lines) := ⟨s.carries_say lines, rfl⟩

/-- As much of the background as a call that waits may need to go on: time passes, a cleanup is dropped, and the watcher
of the server goes on by itself. -/
inductive Unblocks (s : State) : State → Prop
  | time (clock : Nat) (hclock : s.clock ≤ clock) : Unblocks s { s with clock }
  | cleanup (k : Cleanup) (hk : s.cleanup = some k) (hpending : k.result? = none) :
      Unblocks s { s with cleanup := some { k with stage := .cancelled } }
  | watcher (r : Running) (hr : s.server = some r) :
      Unblocks s { s with server := some { r with supervision := r.supervision.settle } }

theorem Unblocks.background (h : Unblocks s t) : Background s t := by
  cases h with
  | time clock hclock => exact .time clock s.accepting hclock
  | cleanup k hk hpending => exact .cleanup k .cancelled hk hpending
  | watcher r hr => exact .server r _ hr ⟨_, by simp, rfl⟩

theorem carries_of_unblocks (h : Relation.ReflTransGen Unblocks s t) : s.Carries t := by
  induction h with
  | refl => exact .refl s
  | tail _ hlast ih => exact ih.trans hlast.background.carries

/-- Something holds of what the background can come to by itself. -/
def CanGo (s : State) (P : State → Prop) : Prop := ∃ t, Relation.ReflTransGen Unblocks s t ∧ P t

theorem CanGo.now {P : State → Prop} (h : P s) : CanGo s P := ⟨s, .refl, h⟩

theorem CanGo.mono {P Q : State → Prop} (h : CanGo s P) (hPQ : ∀ t, P t → Q t) : CanGo s Q := by
  obtain ⟨t, hst, ht⟩ := h
  exact ⟨t, hst, hPQ t ht⟩

/-! ### Stopping the server -/

namespace Stop

/-- How many steps a stop has still to make at most. -/
def rank : Stop → Nat
  | begun => 2
  | waiting => 1
  | returned _ => 0

/-- What is known while the server is stopped. -/
def Holds (s : State) : Stop → Prop
  | begun => True
  | waiting => s.Asked
  | returned _ => s.ServerEnded

variable {p p' : Stop}

/-- A stop that goes on: it finds no server, it asks the one that is there, or the server's end is known. -/
theorem next?_cases (h : p.next? s = some (t, p')) :
    (p = begun ∧ s.server = none ∧ t = s ∧ p' = returned none) ∨
    (∃ r lines, p = begun ∧ s.server = some r ∧ t = { s with server := some r.askStop.1 }.say lines ∧ p' = waiting) ∨
    (∃ r o, p = waiting ∧ s.server = some r ∧ r.awaited? = some o ∧ t = s ∧ p' = returned (some o)) := by
  cases p with
  | begun =>
    cases hr : s.server with
    | none =>
      simp only [next?, hr, Option.some.injEq, Prod.mk.injEq] at h
      exact Or.inl ⟨rfl, rfl, h.1.symm, h.2.symm⟩
    | some r =>
      simp only [next?, hr, Option.some.injEq, Prod.mk.injEq] at h
      exact Or.inr (Or.inl ⟨r, _, rfl, rfl, h.1.symm, h.2.symm⟩)
  | waiting =>
    simp only [next?, Option.map_eq_some_iff, Prod.mk.injEq] at h
    obtain ⟨o, ho, rfl, rfl⟩ := h
    obtain ⟨r, hr, ho⟩ := Option.bind_eq_some_iff.1 ho
    exact Or.inr (Or.inr ⟨r, o, rfl, hr, ho, rfl, rfl⟩)
  | returned o => simp [next?] at h

theorem rank_next? (h : p.next? s = some (t, p')) : p'.rank < p.rank := by
  rcases next?_cases h with ⟨rfl, -, -, rfl⟩ | ⟨r, lines, rfl, -, -, rfl⟩ | ⟨r, o, rfl, -, -, -, rfl⟩ <;> simp [rank]

theorem Holds.carries (h : p.Holds s) (hw : s.Watched) (hst : s.Carries t) : p.Holds t := by
  cases p with
  | begun => trivial
  | waiting => exact hst.asked h
  | returned o => exact hst.serverEnded hw h

theorem holds_next? (hw : s.Watched) (hn : p.next? s = some (t, p')) :
    Leaves s t ∧ t.unclaimed = s.unclaimed ∧ p'.Holds t := by
  obtain ⟨r, hr, hwatch⟩ := hw
  rcases next?_cases hn with ⟨-, hnone, -, -⟩ | ⟨r', lines, -, hr', rfl, rfl⟩ | ⟨r', o, -, hr', ho, rfl, rfl⟩
  · simp [hr] at hnone
  · obtain rfl : r' = r := by simpa [hr] using hr'.symm
    have hasked := State.carries_server hr r'.goesOn_askStop
    exact ⟨⟨hasked.trans (State.carries_say _ _), rfl⟩, rfl, r'.askStop.1, rfl, Running.requested_askStop hwatch⟩
  · obtain rfl : r' = r := by simpa [hr] using hr'.symm
    rw [Running.awaited?, hwatch.1.awaited?_eq] at ho
    exact ⟨.refl t, rfl, r', hr, o, ho, hwatch.1.hasLeft_of_exit ho⟩

/-- Once it was asked, the watcher brings the server to its end by itself. -/
theorem Holds.canGo (h : p.Holds s) (hw : s.Watched) (hp : ∀ o, p ≠ returned o) :
    CanGo s fun t => (p.next? t).isSome := by
  cases p with
  | begun =>
    refine .now ?_
    cases hr : s.server <;> simp [Stop.next?, hr]
  | waiting =>
    obtain ⟨r, hr, hwatch⟩ := hw
    obtain ⟨r', hr', hasked⟩ := h
    obtain rfl : r' = r := by simpa [hr] using hr'.symm
    -- the watcher was asked, so it comes to an outcome without the process having to end of itself
    obtain ⟨o, ho⟩ := hwatch.1.exit_settle (Or.inl hasked)
    refine ⟨_, .single (.watcher r' hr), ?_⟩
    simp [Stop.next?, Running.awaited?, Supervision.awaited?, ho]
  | returned o => exact absurd rfl (hp o)

end Stop

/-! ### Joining the cleanup -/

namespace Join

/-- How many steps a join has still to make at most. -/
def rank : Join → Nat
  | unasked => 2
  | waiting => 1
  | returned _ => 0

/-- What is known while the first who joins the cleanup does so. -/
def Holds (s : State) : Join → Prop
  | unasked => s.unclaimed = s.cleanup.isSome
  | waiting => s.cleanup.isSome = true
  | returned r => s.cleaned? = some r

variable {j j' : Join}

/-- A join that goes on: it is the first or finds that it is not, or the cleanup is over. -/
theorem next?_cases (h : j.next? s = some (t, j')) :
    (j = unasked ∧ s.unclaimed = true ∧ t = { s with unclaimed := false } ∧ j' = waiting) ∨
    (j = unasked ∧ s.unclaimed = false ∧ t = s ∧ j' = returned (.ok none)) ∨
    (∃ k r, j = waiting ∧ s.cleanup = some k ∧ k.result? = some r ∧ t = s ∧ j' = returned (r.map some)) := by
  cases j with
  | unasked =>
    simp only [next?, Option.some.injEq] at h
    split at h
    · rename_i hu
      obtain ⟨rfl, rfl⟩ := Prod.mk.inj h
      exact Or.inl ⟨rfl, hu, rfl, rfl⟩
    · rename_i hu
      obtain ⟨rfl, rfl⟩ := Prod.mk.inj h
      exact Or.inr (Or.inl ⟨rfl, by simpa using hu, rfl, rfl⟩)
  | waiting =>
    simp only [next?, Option.map_eq_some_iff, Prod.mk.injEq] at h
    obtain ⟨r, hr, rfl, rfl⟩ := h
    obtain ⟨k, hk, hr⟩ := Option.bind_eq_some_iff.1 hr
    exact Or.inr (Or.inr ⟨k, r, rfl, hk, hr, rfl, rfl⟩)
  | returned r => simp [next?] at h

theorem rank_next? (h : j.next? s = some (t, j')) : j'.rank < j.rank := by
  rcases next?_cases h with ⟨rfl, -, -, rfl⟩ | ⟨rfl, -, -, rfl⟩ | ⟨k, r, rfl, -, -, -, rfl⟩ <;> simp [rank]

theorem Holds.background (h : j.Holds s) (hbg : Background s t) : j.Holds t := by
  cases j with
  | unasked => rwa [Holds, hbg.unclaimed_eq, hbg.carries.hasCleanup]
  | waiting => exact hbg.carries.hasCleanup.trans h
  | returned r => exact hbg.carries.cleaned r h

theorem Holds.next? (h : j.Holds s) (hn : j.next? s = some (t, j')) : Leaves s t ∧ j'.Holds t := by
  rcases next?_cases hn with ⟨rfl, hu, rfl, rfl⟩ | ⟨rfl, hu, rfl, rfl⟩ | ⟨k, r, rfl, hk, hr, rfl, rfl⟩
  · have hcleanup : s.cleanup.isSome = true := by rwa [← (h : s.unclaimed = s.cleanup.isSome)]
    exact ⟨⟨⟨rfl, rfl, rfl, fun _ h => h, fun r h => ⟨r, h, .refl r⟩⟩, rfl⟩, hcleanup⟩
  · have hcleanup : t.cleanup = none := by
      have hnone : t.unclaimed = t.cleanup.isSome := h
      rwa [hu, eq_comm, Option.isSome_eq_false_iff, Option.isNone_iff_eq_none] at hnone
    exact ⟨.refl t, by simp [Holds, State.cleaned?, hcleanup]⟩
  · exact ⟨.refl t, by simp [Holds, State.cleaned?, hk, hr]⟩

theorem Holds.canGo (h : j.Holds s) (hj : ∀ r, j ≠ returned r) : CanGo s fun t => (j.next? t).isSome := by
  cases j with
  | unasked => exact .now rfl
  | waiting =>
    obtain ⟨k, hk⟩ := Option.isSome_iff_exists.1 h
    cases hresult : k.result? with
    | some r => exact .now (by simp [Join.next?, hk, hresult])
    | none =>
      -- any end will do, and a cleanup that has none can be cancelled
      refine ⟨_, .single (.cleanup k hk hresult), ?_⟩
      simp [Join.next?, Cleanup.result?]
  | returned r => exact absurd rfl (hj r)

end Join

/-! ### Both -/

namespace Shutdown

/-- How many steps a shutdown has still to make at most. -/
def rank : Shutdown → Nat
  | stopping p => p.rank + 4
  | joining j => j.rank + 1
  | returned _ => 0

/-- What is known while a launcher is shut down by the first who joins its cleanup. -/
def Holds (s : State) : Shutdown → Prop
  | stopping p => p.Holds s ∧ Join.unasked.Holds s
  | joining j => s.ServerEnded ∧ j.Holds s
  | returned r => s.ServerEnded ∧ s.cleaned? = some r

variable {p p' : Shutdown}

/-- A shutdown that goes on: the server has been stopped, the cleanup was joined, or one of the two goes on. -/
theorem next?_cases (h : p.next? s = some (t, p')) :
    (∃ o lines, p = stopping (.returned o) ∧ t = s.say lines ∧ p' = joining .unasked) ∨
    (∃ q q', p = stopping q ∧ q.next? s = some (t, q') ∧ p' = stopping q') ∨
    (∃ r lines, p = joining (.returned r) ∧ t = s.say lines ∧ p' = returned r) ∨
    (∃ j j', p = joining j ∧ j.next? s = some (t, j') ∧ p' = joining j') := by
  cases p with
  | stopping q =>
    cases q with
    | returned o =>
      simp only [next?, Option.some.injEq, Prod.mk.injEq] at h
      exact Or.inl ⟨o, _, rfl, h.1.symm, h.2.symm⟩
    | _ =>
      simp only [next?, Option.map_eq_some_iff, Prod.mk.injEq] at h
      obtain ⟨⟨_, q'⟩, hq, rfl, rfl⟩ := h
      exact Or.inr (Or.inl ⟨_, q', rfl, hq, rfl⟩)
  | joining j =>
    cases j with
    | returned r =>
      simp only [next?, Option.some.injEq, Prod.mk.injEq] at h
      exact Or.inr (Or.inr (Or.inl ⟨r, _, rfl, h.1.symm, h.2.symm⟩))
    | _ =>
      simp only [next?, Option.map_eq_some_iff, Prod.mk.injEq] at h
      obtain ⟨⟨_, j'⟩, hj, rfl, rfl⟩ := h
      exact Or.inr (Or.inr (Or.inr ⟨_, j', rfl, hj, rfl⟩))
  | returned r => simp [next?] at h

theorem rank_next? (h : p.next? s = some (t, p')) : p'.rank < p.rank := by
  rcases next?_cases h with ⟨o, lines, rfl, -, rfl⟩ | ⟨q, q', rfl, hq, rfl⟩ | ⟨r, lines, rfl, -, rfl⟩ |
    ⟨j, j', rfl, hj, rfl⟩
  · simp [rank, Stop.rank, Join.rank]
  · have := Stop.rank_next? hq
    simp only [rank]
    omega
  · simp [rank]
  · have := Join.rank_next? hj
    simp only [rank]
    omega

theorem Holds.background (h : p.Holds s) (hw : s.Watched) (hbg : Background s t) : p.Holds t := by
  cases p with
  | stopping q => exact ⟨h.1.carries hw hbg.carries, h.2.background hbg⟩
  | joining j => exact ⟨hbg.carries.serverEnded hw h.1, h.2.background hbg⟩
  | returned r => exact ⟨hbg.carries.serverEnded hw h.1, hbg.carries.cleaned r h.2⟩

theorem Holds.next? (h : p.Holds s) (hw : s.Watched) (hn : p.next? s = some (t, p')) : Leaves s t ∧ p'.Holds t := by
  rcases next?_cases hn with ⟨o, lines, rfl, rfl, rfl⟩ | ⟨q, q', rfl, hq, rfl⟩ | ⟨r, lines, rfl, rfl, rfl⟩ |
    ⟨j, j', rfl, hj, rfl⟩
  · exact ⟨leaves_say s lines, h⟩
  · obtain ⟨hst, hu, hq'⟩ := Stop.holds_next? hw hq
    exact ⟨hst, hq', hu.trans (h.2.trans hst.carries.hasCleanup.symm)⟩
  · exact ⟨leaves_say s lines, h⟩
  · obtain ⟨hst, hj'⟩ := h.2.next? hj
    exact ⟨hst, hst.carries.serverEnded hw h.1, hj'⟩

theorem Holds.canGo (h : p.Holds s) (hw : s.Watched) (hp : ∀ r, p ≠ returned r) :
    CanGo s fun t => (p.next? t).isSome := by
  cases p with
  | stopping q =>
    cases q with
    | returned o => exact .now rfl
    | _ => exact (h.1.canGo hw (by simp)).mono fun t ht => by simpa [Shutdown.next?] using ht
  | joining j =>
    cases j with
    | returned r => exact .now rfl
    | _ => exact (h.2.canGo (by simp)).mono fun t ht => by simpa [Shutdown.next?] using ht
  | returned r => exact absurd rfl (hp r)

end Shutdown

end AppLauncher.Launcher
