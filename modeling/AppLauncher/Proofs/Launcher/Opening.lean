import AppLauncher.Launcher.Opening
import AppLauncher.Proofs.Launcher.Shutdown
import AppLauncher.Proofs.Server.Readiness

/-!
# What opening the window comes to

The call that opens the window runs beside the cleanup, the server and whoever else asks the server to stop
(`Scene`).  In whatever order they go on, what the call returns and what it asked of the window is decided by the
answers of the window, the result of the cleanup and the verdict of the wait (`opening_outcome`), and it does return.
-/

namespace AppLauncher.Launcher

open AppLauncher.Server

/-- A launcher while its window is opened, and the verdict that the wait for readiness has come to, once it has. -/
structure Scene where
  launcher : State
  opening : Opening
  verdict : Option Verdict := none

/-- The verdict that a call holds while it still waits for the cleanup. -/
def Opening.verdict? : Opening → Option Verdict
  | waiting _ _ v => v
  | _ => none

/-- A step of the call, or of what goes on beside it. -/
inductive Scene.Step (x : Scene) : Scene → Prop
  | call (s : State) (o : Opening) (h : (s, o) ∈ x.opening.next x.launcher) :
      Step x ⟨s, o, o.verdict?.or x.verdict⟩
  | background (s : State) (h : Background x.launcher s) : Step x { x with launcher := s }

def Scene.Runs : Scene → Scene → Prop := Relation.ReflTransGen Scene.Step

namespace Opening

/-- The first call that the window gets. -/
def creation (s : State) : Window.Call := .create (.ofSettings s.config.window)

/-- All that a step of the call can be. -/
inductive Move (s : State) : Opening → State → Opening → Prop
  | creates (h : s.window.answer (creation s) = none) : Move s begun (s.ask (creation s)).1 (created .unasked)
  | fails (e : LauncherError) (lines : List Log.Line) (h : s.window.answer (creation s) = some e) :
      Move s begun ((s.ask (creation s)).1.say lines) (givingUp (creationReason e) .begun)
  | shutsDown (reason : String) (p p' : Shutdown) (t : State) (h : p.next? s = some (t, p')) :
      Move s (givingUp reason p) t (givingUp reason p')
  | givesUp (reason : String) (r : Except LauncherError (Option Cache.Report)) :
      Move s (givingUp reason (.returned r)) s (returned (.error (.windowCreate reason)))
  | joinsFirst (j j' : Join) (t : State) (h : j.next? s = some (t, j')) : Move s (created j) t (created j')
  | waits (j : Join) (lines : List Log.Line) (hj : ∀ e, j ≠ .returned (.error e)) :
      Move s (created j) (s.say lines) (waiting s.clock j none)
  | breaksOff (e : LauncherError) (lines : List Log.Line) :
      Move s (created (.returned (.error e))) (s.say lines) (stopping e .begun)
  | joins (since : Nat) (v : Option Verdict) (j j' : Join) (t : State) (h : j.next? s = some (t, j')) :
      Move s (waiting since j v) t (waiting since j' v)
  | judges (since : Nat) (v : Verdict) (j : Join) (lines : List Log.Line) (hj : ∀ e, j ≠ .returned (.error e))
      (h : v ∈ verdicts s.probe (s.moment since)) :
      Move s (waiting since j none) (s.say lines) (waiting since j (some v))
  | breaksOffWait (since : Nat) (v : Option Verdict) (e : LauncherError) (lines : List Log.Line) :
      Move s (waiting since (.returned (.error e)) v) (s.say lines) (stopping e .begun)
  | finishes (since : Nat) (v : Verdict) (r : Option Cache.Report) :
      Move s (waiting since (.returned (.ok r)) (some v)) (finish s v).1 (finish s v).2
  | stops (e : LauncherError) (p p' : Stop) (t : State) (h : p.next? s = some (t, p')) :
      Move s (stopping e p) t (stopping e p')
  | stopped (e : LauncherError) (o : Option Outcome) :
      Move s (stopping e (.returned o)) s (returned (.error e))

variable {s t : State} {o o' : Opening}

/-- The step of a part of a call as a step of the call. -/
private theorem mem_steps {P : Type} (part : Option (State × P)) (whole : P → Opening)
    (h : (t, o') ∈ (part.map fun p => (p.1, whole p.2)).toList) : ∃ p', part = some (t, p') ∧ o' = whole p' := by
  simp only [Option.mem_toList, Option.map_eq_some_iff, Prod.mk.injEq] at h
  obtain ⟨⟨t', p'⟩, hp, rfl, rfl⟩ := h
  exact ⟨p', hp, rfl⟩

private theorem move_of_mem_begun (h : (t, o') ∈ begun.next s) : Move s begun t o' := by
  have hanswer : (s.ask (creation s)).2 = s.window.answer (creation s) := rfl
  simp only [next] at h
  rw [← creation] at h
  cases ha : s.window.answer (creation s) with
  | none =>
    rw [hanswer, ha, List.mem_singleton, Prod.mk.injEq] at h
    obtain ⟨rfl, rfl⟩ := h
    exact .creates ha
  | some e =>
    rw [hanswer, ha, List.mem_singleton, Prod.mk.injEq] at h
    obtain ⟨rfl, rfl⟩ := h
    exact .fails e _ ha

private theorem move_of_mem_created {j : Join} (hj : ∀ r, j ≠ .returned r) (h : (t, o') ∈ (created j).next s) :
    Move s (created j) t o' := by
  cases hn : j.next? s with
  | none =>
    have hnext : (created j).next s = [(announce s, waiting s.clock j none)] := by
      cases j with
      | returned r => exact absurd rfl (hj r)
      | _ => simp only [next, hn]
    rw [hnext, List.mem_singleton, Prod.mk.injEq] at h
    obtain ⟨rfl, rfl⟩ := h
    exact .waits j _ fun e => hj _
  | some p =>
    have hnext : (created j).next s = [(p.1, created p.2)] := by
      cases j with
      | returned r => exact absurd rfl (hj r)
      | _ => simp only [next, hn]
    rw [hnext, List.mem_singleton, Prod.mk.injEq] at h
    obtain ⟨rfl, rfl⟩ := h
    exact .joinsFirst j p.2 p.1 hn

private theorem move_of_mem_verdictSteps {since : Nat} {j : Join} (hj : ∀ e, j ≠ .returned (.error e))
    (h : (t, o') ∈ verdictSteps s since j) : Move s (waiting since j none) t o' := by
  simp only [verdictSteps, List.mem_map, Prod.mk.injEq] at h
  obtain ⟨v, hv, rfl, rfl⟩ := h
  exact .judges since v j _ hj hv

private theorem move_of_mem_waiting {since : Nat} {j : Join} {v : Option Verdict} (hj : ∀ r, j ≠ .returned r)
    (h : (t, o') ∈ (waiting since j v).next s) : Move s (waiting since j v) t o' := by
  have hjoin : (t, o') ∈ ((j.next? s).map fun p => (p.1, waiting since p.2 v)).toList →
      Move s (waiting since j v) t o' := by
    intro h
    obtain ⟨j', hn, rfl⟩ := mem_steps (j.next? s) (fun j => waiting since j v) h
    exact .joins since v j j' t hn
  cases v with
  | some v =>
    cases j with
    | returned r => exact absurd rfl (hj r)
    | _ => exact hjoin h
  | none =>
    have h : (t, o') ∈ ((j.next? s).map fun p => (p.1, waiting since p.2 none)).toList ++ verdictSteps s since j := by
      cases j with
      | returned r => exact absurd rfl (hj r)
      | _ => exact h
    rcases List.mem_append.1 h with h | h
    · exact hjoin h
    · exact move_of_mem_verdictSteps (fun e => hj _) h

theorem move_of_mem_next (h : (t, o') ∈ o.next s) : Move s o t o' := by
  cases o with
  | begun => exact move_of_mem_begun h
  | givingUp reason p =>
    cases p with
    | returned r =>
      obtain ⟨rfl, rfl⟩ : t = s ∧ o' = returned (.error (.windowCreate reason)) := by simpa [next] using h
      exact .givesUp reason r
    | _ =>
      obtain ⟨p', hp, rfl⟩ := mem_steps (Shutdown.next? s _) (givingUp reason) h
      exact .shutsDown reason _ p' t hp
  | created j =>
    cases j with
    | returned r =>
      cases r with
      | error e =>
        obtain ⟨rfl, rfl⟩ : t = _ ∧ o' = stopping e .begun := by simpa [next] using h
        exact .breaksOff e _
      | ok r =>
        obtain ⟨rfl, rfl⟩ : t = announce s ∧ o' = waiting s.clock (.returned (.ok r)) none := by
          simpa [next] using h
        exact .waits _ _ (by simp)
    | _ => exact move_of_mem_created (by simp) h
  | waiting since j v =>
    cases j with
    | returned r =>
      cases r with
      | error e =>
        obtain ⟨rfl, rfl⟩ : t = _ ∧ o' = stopping e .begun := by simpa [next] using h
        exact .breaksOffWait since v e _
      | ok r =>
        cases v with
        | some v =>
          have h : (t, o') = finish s v := by simpa [next] using h
          obtain ⟨rfl, rfl⟩ := Prod.mk.inj h
          exact .finishes since v r
        | none =>
          exact move_of_mem_verdictSteps (by simp) h
    | _ => exact move_of_mem_waiting (by simp) h
  | stopping e p =>
    cases p with
    | returned o =>
      obtain ⟨rfl, rfl⟩ : t = s ∧ o' = returned (.error e) := by simpa [next] using h
      exact .stopped e o
    | _ =>
      obtain ⟨p', hp, rfl⟩ := mem_steps (Stop.next? s _) (stopping e) h
      exact .stops e _ p' t hp
  | returned r => simp [next] at h

/-- A verdict that a call holds is one that it held before, or one that is true. -/
theorem Move.judged {v : Verdict} (h : Move s o t o') (hv : o'.verdict? = some v) :
    o.verdict? = some v ∨ ∃ since, v ∈ verdicts s.probe (s.moment since) := by
  cases h with
  | joins since v' j j' t h => exact Or.inl hv
  | judges since v' j lines hj h =>
    obtain rfl := Option.some.inj hv
    exact Or.inr ⟨since, h⟩
  | finishes since v' r => cases v' <;> cases hv
  | _ => cases hv

/-! ### Getting nearer to the end -/

/-- How many steps a call has still to make at most. -/
def rank : Opening → Nat
  | begun => 11
  | givingUp _ p => p.rank + 1
  | created j => j.rank + 8
  | waiting _ j v => j.rank + (if v.isNone then 5 else 4)
  | stopping _ p => p.rank + 1
  | returned _ => 0

theorem finish_eq (s : State) (v : Verdict) : ∃ r, (finish s v).2 = returned r := by
  cases v with
  | ok u => exact ⟨_, rfl⟩
  | error e => exact ⟨_, rfl⟩

theorem Move.rank_lt (h : Move s o t o') : o'.rank < o.rank := by
  cases h with
  | creates h => simp [rank, Join.rank]
  | fails e lines h => simp [rank, Shutdown.begun, Shutdown.rank, Stop.rank]
  | shutsDown reason p p' t h =>
    have := Shutdown.rank_next? h
    simpa [rank] using this
  | givesUp reason r => simp [rank]
  | joinsFirst j j' t h =>
    have := Join.rank_next? h
    simpa [rank] using this
  | waits j lines hj => simp [rank]
  | breaksOff e lines => simp [rank, Stop.rank]
  | joins since v j j' t h =>
    have := Join.rank_next? h
    simpa [rank] using this
  | judges since v j lines hj h => simp [rank]
  | breaksOffWait since v e lines => cases v <;> simp [rank, Stop.rank]
  | finishes since v r =>
    obtain ⟨result, hresult⟩ := finish_eq s v
    rw [hresult]
    simp [rank]
  | stops e p p' t h =>
    have := Stop.rank_next? h
    simpa [rank] using this
  | stopped e o => simp [rank]

/-! ### What is known on the way -/

/-- What the call has come to: which calls the window got and what is returned, by what the window answers, what the
cleanup came to and the verdict of the wait. -/
structure Outcome (s₀ s : State) (v : Option Verdict) (result : Except LauncherError String) : Prop where
  cleaned : ∃ c, s.cleaned? = some c
  judged : s₀.window.answer (creation s₀) = none → (∃ r, s.cleaned? = some (.ok r)) → ∃ v', v = some v'
  notCreated : ∀ e, s₀.window.answer (creation s₀) = some e →
    s.calls = s₀.calls ++ [creation s₀] ∧ result = .error (.windowCreate (creationReason e)) ∧ s.ServerEnded
  notCleaned : ∀ e, s₀.window.answer (creation s₀) = none → s.cleaned? = some (.error e) →
    s.calls = s₀.calls ++ [creation s₀] ∧ result = .error e ∧ s.ServerEnded
  ready : ∀ r, s₀.window.answer (creation s₀) = none → s.cleaned? = some (.ok r) → v = some (.ok ()) →
    s.calls = s₀.calls ++ [creation s₀, .loadUrl s₀.url] ∧
      result = match s₀.window.answer (.loadUrl s₀.url) with
        | some e => .error e
        | none => .ok s₀.url
  notReady : ∀ r e, s₀.window.answer (creation s₀) = none → s.cleaned? = some (.ok r) → v = some (.error e) →
    s.calls = s₀.calls ++ [creation s₀, .showError e.message] ∧
      result = .error ((s₀.window.answer (.showError e.message)).getD e)

/-- Nothing else decides what the call comes to. -/
theorem Outcome.unique {s₀ s t : State} {v : Option Verdict} {r r' : Except LauncherError String}
    (h : Outcome s₀ s v r) (h' : Outcome s₀ t v r') (heq : s.cleaned? = t.cleaned?) : s.calls = t.calls ∧ r = r' := by
  cases hcreate : s₀.window.answer (creation s₀) with
  | some e =>
    obtain ⟨hcalls, hr, -⟩ := h.notCreated e hcreate
    obtain ⟨hcalls', hr', -⟩ := h'.notCreated e hcreate
    exact ⟨hcalls.trans hcalls'.symm, hr.trans hr'.symm⟩
  | none =>
    obtain ⟨c, hc⟩ := h.cleaned
    cases c with
    | error e =>
      obtain ⟨hcalls, hr, -⟩ := h.notCleaned e hcreate hc
      obtain ⟨hcalls', hr', -⟩ := h'.notCleaned e hcreate (heq ▸ hc)
      exact ⟨hcalls.trans hcalls'.symm, hr.trans hr'.symm⟩
    | ok report =>
      obtain ⟨verdict, rfl⟩ := h.judged hcreate ⟨report, hc⟩
      cases verdict with
      | ok u =>
        obtain ⟨hcalls, hr⟩ := h.ready report hcreate hc rfl
        obtain ⟨hcalls', hr'⟩ := h'.ready report hcreate (heq ▸ hc) rfl
        exact ⟨hcalls.trans hcalls'.symm, hr.trans hr'.symm⟩
      | error e =>
        obtain ⟨hcalls, hr⟩ := h.notReady report e hcreate hc rfl
        obtain ⟨hcalls', hr'⟩ := h'.notReady report e hcreate (heq ▸ hc) rfl
        exact ⟨hcalls.trans hcalls'.symm, hr.trans hr'.symm⟩

/-- What is known at each point of a call that began in a state. -/
def Holds (s₀ s : State) (v : Option Verdict) : Opening → Prop
  | begun => s.calls = s₀.calls ∧ v = none ∧ Join.unasked.Holds s
  | givingUp reason p => (∃ e, s₀.window.answer (creation s₀) = some e ∧ reason = creationReason e) ∧
      s.calls = s₀.calls ++ [creation s₀] ∧ p.Holds s
  | created j => s₀.window.answer (creation s₀) = none ∧ s.calls = s₀.calls ++ [creation s₀] ∧ v = none ∧ j.Holds s
  | waiting _ j v' => s₀.window.answer (creation s₀) = none ∧ s.calls = s₀.calls ++ [creation s₀] ∧ v = v' ∧ j.Holds s
  | stopping e p => s₀.window.answer (creation s₀) = none ∧ s.calls = s₀.calls ++ [creation s₀] ∧
      s.cleaned? = some (.error e) ∧ p.Holds s
  | returned r => Outcome s₀ s v r

variable {s₀ : State} {v : Option Verdict}

theorem Outcome.background {r : Except LauncherError String} (h : Outcome s₀ s v r) (hw : s.Watched)
    (hbg : Background s t) : Outcome s₀ t v r := by
  obtain ⟨c, hc⟩ := h.cleaned
  have heq : t.cleaned? = s.cleaned? := (hbg.carries.cleaned c hc).trans hc.symm
  have hend := hbg.carries.serverEnded hw
  constructor
  · rw [heq]
    exact h.cleaned
  · rw [heq]
    exact h.judged
  · intro e he
    obtain ⟨hcalls, hresult, hserver⟩ := h.notCreated e he
    exact ⟨hbg.calls_eq.trans hcalls, hresult, hend hserver⟩
  · intro e he hclean
    obtain ⟨hcalls, hresult, hserver⟩ := h.notCleaned e he (heq ▸ hclean)
    exact ⟨hbg.calls_eq.trans hcalls, hresult, hend hserver⟩
  · intro r' he hclean hv
    obtain ⟨hcalls, hresult⟩ := h.ready r' he (heq ▸ hclean) hv
    exact ⟨hbg.calls_eq.trans hcalls, hresult⟩
  · intro r' e he hclean hv
    obtain ⟨hcalls, hresult⟩ := h.notReady r' e he (heq ▸ hclean) hv
    exact ⟨hbg.calls_eq.trans hcalls, hresult⟩

theorem Holds.background (h : o.Holds s₀ s v) (hw : s.Watched) (hbg : Background s t) : o.Holds s₀ t v := by
  cases o with
  | begun => exact ⟨hbg.calls_eq.trans h.1, h.2.1, h.2.2.background hbg⟩
  | givingUp reason p => exact ⟨h.1, hbg.calls_eq.trans h.2.1, h.2.2.background hw hbg⟩
  | created j => exact ⟨h.1, hbg.calls_eq.trans h.2.1, h.2.2.1, h.2.2.2.background hbg⟩
  | waiting since j v' => exact ⟨h.1, hbg.calls_eq.trans h.2.1, h.2.2.1, h.2.2.2.background hbg⟩
  | stopping e p =>
    exact ⟨h.1, hbg.calls_eq.trans h.2.1, hbg.carries.cleaned _ h.2.2.1, h.2.2.2.carries hw hbg.carries⟩
  | returned r => exact Outcome.background h hw hbg

private theorem carries_finish (s : State) (v : Verdict) : s.Carries (finish s v).1 := by
  cases v with
  | ok u => exact (s.carries_say _).trans (State.carries_ask _ _)
  | error e => exact (s.carries_say _).trans (State.carries_ask _ _)

private theorem outcome_finish {verdict : Verdict} {report : Option Cache.Report} (hs : s₀.Carries s)
    (hcreate : s₀.window.answer (creation s₀) = none) (hcalls : s.calls = s₀.calls ++ [creation s₀])
    (hclean : s.cleaned? = some (.ok report)) {r : Except LauncherError String}
    (hr : (finish s verdict).2 = returned r) : Outcome s₀ (finish s verdict).1 (some verdict) r := by
  have hclean' := (carries_finish s verdict).cleaned _ hclean
  have hurl : s.url = s₀.url := by rw [State.url, hs.config]; rfl
  refine ⟨⟨_, hclean'⟩, fun _ _ => ⟨verdict, rfl⟩, ?_, ?_, ?_, ?_⟩
  · simp [hcreate]
  · simp [hclean']
  · rintro r' - - hv
    obtain rfl := Option.some.inj hv
    have hcalls' : (finish s (.ok ())).1.calls = s.calls ++ [.loadUrl s.url] := rfl
    have hresult : (finish s (.ok ())).2 = returned (match s.window.answer (.loadUrl s.url) with
        | some e => .error e
        | none => .ok s.url) := rfl
    rw [hresult, hs.window, hurl] at hr
    rw [hcalls', hcalls, hurl, List.append_assoc]
    exact ⟨rfl, (Opening.returned.inj hr).symm⟩
  · rintro r' e - - hv
    obtain rfl := Option.some.inj hv
    have hcalls' : (finish s (.error e)).1.calls = s.calls ++ [.showError e.message] := rfl
    have hresult : (finish s (.error e)).2 =
        returned (.error ((s.window.answer (.showError e.message)).getD e)) := rfl
    rw [hresult, hs.window] at hr
    rw [hcalls', hcalls, List.append_assoc]
    exact ⟨rfl, (Opening.returned.inj hr).symm⟩

theorem Move.holds (h : Move s o t o') (hs : s₀.Carries s) (hw : s.Watched) (ho : o.Holds s₀ s v) :
    s.Carries t ∧ o'.Holds s₀ t (o'.verdict?.or v) := by
  have hcreation : creation s = creation s₀ := by rw [creation, hs.config]; rfl
  have hanswer : s.window.answer (creation s) = s₀.window.answer (creation s₀) := by rw [hs.window, hcreation]
  cases h with
  | creates h =>
    obtain ⟨hcalls, hv, hjoin⟩ := ho
    refine ⟨s.carries_ask _, hanswer ▸ h, ?_, hv, hjoin⟩
    rw [← hcalls, ← hcreation]
    rfl
  | fails e lines h =>
    obtain ⟨hcalls, hv, hjoin⟩ := ho
    refine ⟨(s.carries_ask _).trans (State.carries_say _ _), ⟨e, hanswer ▸ h, rfl⟩, ?_, trivial, hjoin⟩
    rw [← hcalls, ← hcreation]
    rfl
  | shutsDown reason p p' t h =>
    obtain ⟨hcreate, hcalls, hp⟩ := ho
    obtain ⟨hst, hp'⟩ := hp.next? hw h
    exact ⟨hst.carries, hcreate, hst.calls.trans hcalls, hp'⟩
  | givesUp reason r =>
    obtain ⟨⟨e, hcreate, rfl⟩, hcalls, hend, hclean⟩ := ho
    refine ⟨.refl s, ⟨r, hclean⟩, ?_, ?_, ?_, ?_, ?_⟩
    · simp [hcreate]
    · rintro e' he'
      rw [hcreate] at he'
      obtain rfl := Option.some.inj he'
      exact ⟨hcalls, rfl, hend⟩
    · simp [hcreate]
    · simp [hcreate]
    · simp [hcreate]
  | joinsFirst j j' t h =>
    obtain ⟨hcreate, hcalls, hv, hj⟩ := ho
    obtain ⟨hst, hj'⟩ := hj.next? h
    exact ⟨hst.carries, hcreate, hst.calls.trans hcalls, hv, hj'⟩
  | waits j lines hj =>
    obtain ⟨hcreate, hcalls, hv, hj⟩ := ho
    exact ⟨s.carries_say _, hcreate, hcalls, hv, hj⟩
  | breaksOff e lines =>
    obtain ⟨hcreate, hcalls, hv, hj⟩ := ho
    exact ⟨s.carries_say _, hcreate, hcalls, hj, trivial⟩
  | joins since v' j j' t h =>
    obtain ⟨hcreate, hcalls, rfl, hj⟩ := ho
    obtain ⟨hst, hj'⟩ := hj.next? h
    exact ⟨hst.carries, hcreate, hst.calls.trans hcalls, by simp [verdict?], hj'⟩
  | judges since v' j lines hj h =>
    obtain ⟨hcreate, hcalls, rfl, hj⟩ := ho
    exact ⟨s.carries_say _, hcreate, hcalls, rfl, hj⟩
  | breaksOffWait since v' e lines =>
    obtain ⟨hcreate, hcalls, rfl, hj⟩ := ho
    exact ⟨s.carries_say _, hcreate, hcalls, hj, trivial⟩
  | finishes since verdict report =>
    obtain ⟨hcreate, hcalls, rfl, hclean⟩ := ho
    obtain ⟨r, hr⟩ := finish_eq s verdict
    rw [hr]
    exact ⟨carries_finish s verdict, outcome_finish hs hcreate hcalls hclean hr⟩
  | stops e p p' t h =>
    obtain ⟨hcreate, hcalls, hclean, hp⟩ := ho
    obtain ⟨hst, -, hp'⟩ := Stop.holds_next? hw h
    exact ⟨hst.carries, hcreate, hst.calls.trans hcalls, hst.carries.cleaned _ hclean, hp'⟩
  | stopped e outcome =>
    obtain ⟨hcreate, hcalls, hclean, hend⟩ := ho
    refine ⟨.refl s, ⟨_, hclean⟩, ?_, ?_, ?_, ?_, ?_⟩
    · rintro - ⟨r, hr⟩
      simp [hclean] at hr
    · simp [hcreate]
    · rintro e' - he'
      rw [hclean] at he'
      obtain rfl : e = e' := by simpa using he'
      exact ⟨hcalls, rfl, hend⟩
    · simp [hclean]
    · simp [hclean]

/-! ### Going on -/

/-- Whether the window could not be created, or the cleanup has failed. -/
def Fails (s₀ s : State) : Prop :=
  (∃ e, s₀.window.answer (creation s₀) = some e) ∨ ∃ e, s.cleaned? = some (.error e)

/-- A step that can come next, and that brings no verdict in a certain case. -/
def HasNext (v : Option Verdict) (failed : Prop) (o : Opening) (t : State) : Prop :=
  ∃ s' o', (s', o') ∈ o.next t ∧ (failed → o'.verdict?.or v = v)

private theorem hasNext_created {failed : Prop} (j : Join) : HasNext v failed (created j) s := by
  cases j with
  | returned r =>
    cases r with
    | error e => exact ⟨_, _, List.mem_singleton.2 rfl, fun _ => rfl⟩
    | ok r => exact ⟨_, _, List.mem_singleton.2 rfl, fun _ => rfl⟩
  | unasked =>
    obtain ⟨⟨t, j'⟩, hn⟩ : ∃ x, Join.unasked.next? s = some x := ⟨_, rfl⟩
    exact ⟨t, created j', by simp [next, hn], fun _ => rfl⟩
  | waiting =>
    cases hn : Join.waiting.next? s with
    | none => exact ⟨announce s, waiting s.clock .waiting none, by simp [next, hn], fun _ => rfl⟩
    | some next' => exact ⟨next'.1, created next'.2, by simp [next, hn], fun _ => rfl⟩

private theorem hasNext_joining {failed : Prop} {since : Nat} {j : Join} (h : (j.next? s).isSome) :
    HasNext v failed (waiting since j v) s := by
  obtain ⟨⟨t, j'⟩, hn⟩ := Option.isSome_iff_exists.1 h
  have hkeep : (waiting since j' v).verdict?.or v = v := by cases v <;> rfl
  refine ⟨t, waiting since j' v, ?_, fun _ => hkeep⟩
  cases j with
  | returned r => simp [Join.next?] at hn
  | _ => cases v <;> simp [next, hn]

/-- A wait for readiness alone can end with each verdict that is true. -/
theorem judging_mem_next {since : Nat} (r : Option Cache.Report) {verdict : Verdict}
    (h : verdict ∈ verdicts s.probe (s.moment since)) :
    (s.say (attemptLines s.probe (s.accepting.map (· - since)) (s.clock - since)),
      waiting since (.returned (.ok r)) (some verdict)) ∈ (waiting since (.returned (.ok r)) none).next s :=
  List.mem_append_right _ (List.mem_map.2 ⟨verdict, h, rfl⟩)

private theorem canGo_judging {failed : Prop} {since : Nat} {r : Option Cache.Report} (hnot : ¬ failed) :
    CanGo s (HasNext none failed (waiting since (.returned (.ok r)) none)) := by
  -- nothing but time is needed for the wait to end
  let t : State := { s with clock := s.clock + since + limit s.probe }
  have hlimit : limit s.probe ≤ (t.moment since).elapsed := by
    have : (t.moment since).elapsed = s.clock + since + limit s.probe - since := rfl
    omega
  obtain ⟨verdict, hverdict⟩ := List.exists_mem_of_ne_nil _ (Moment.verdicts_ne_nil hlimit)
  refine ⟨t, .single (.time t.clock (by simp only [t]; omega)), ?_⟩
  exact ⟨_, _, judging_mem_next r hverdict, fun h => absurd h hnot⟩

/-- A call that has not returned can go on, at once or after the background alone has gone on. -/
theorem Holds.canGo (h : o.Holds s₀ s v) (hw : s.Watched) (ho : ∀ r, o ≠ returned r) :
    CanGo s (HasNext v (Fails s₀ s) o) := by
  cases o with
  | begun =>
    refine .now ?_
    cases ha : s.window.answer (creation s) with
    | none => exact ⟨_, _, by rw [next, ← creation, State.ask, ha]; exact List.mem_singleton.2 rfl, fun _ => rfl⟩
    | some e => exact ⟨_, _, by rw [next, ← creation, State.ask, ha]; exact List.mem_singleton.2 rfl, fun _ => rfl⟩
  | givingUp reason p =>
    cases p with
    | returned r => exact .now ⟨_, _, List.mem_singleton.2 rfl, fun _ => rfl⟩
    | _ =>
      refine (h.2.2.canGo hw (by simp)).mono fun t ht => ?_
      obtain ⟨⟨t', p'⟩, hn⟩ := Option.isSome_iff_exists.1 ht
      exact ⟨t', givingUp reason p', by simp [next, hn], fun _ => rfl⟩
  | created j => exact .now (hasNext_created j)
  | waiting since j v' =>
    obtain ⟨hcreate, -, rfl, hj⟩ := h
    cases j with
    | returned r =>
      cases r with
      | error e => exact .now ⟨_, _, List.mem_singleton.2 rfl, fun _ => rfl⟩
      | ok r =>
        have hclean : s.cleaned? = some (.ok r) := hj
        -- only here a verdict is waited for, and nothing has failed
        have hnot : ¬ Fails s₀ s := by simp [Fails, hcreate, hclean]
        cases v with
        | some verdict => exact .now ⟨_, _, List.mem_singleton.2 rfl, fun h => absurd h hnot⟩
        | none => exact canGo_judging hnot
    | _ => exact (hj.canGo (by simp)).mono fun t ht => hasNext_joining ht
  | stopping e p =>
    cases p with
    | returned o => exact .now ⟨_, _, List.mem_singleton.2 rfl, fun _ => rfl⟩
    | _ =>
      refine (h.2.2.2.canGo hw (by simp)).mono fun t ht => ?_
      obtain ⟨⟨t', p'⟩, hn⟩ := Option.isSome_iff_exists.1 ht
      exact ⟨t', stopping e p', by simp [next, hn], fun _ => rfl⟩
  | returned r => exact absurd rfl (ho r)

end Opening

/-! ### Whole runs -/

namespace Scene

open Opening (creation Fails)

/-- The scene at the begin of a call. -/
def begin (s : State) : Scene := ⟨s, .begun, none⟩

/-- What is known of a scene in a run that began in a state. -/
structure Known (s₀ : State) (x : Scene) : Prop where
  carries : s₀.Carries x.launcher
  watched : x.launcher.Watched
  holds : x.opening.Holds s₀ x.launcher x.verdict

variable {s s₀ t : State} {x y : Scene}

theorem Known.step (h : Known s₀ x) (hxy : x.Step y) : x.launcher.Carries y.launcher ∧ Known s₀ y := by
  cases hxy with
  | call s o hnext =>
    obtain ⟨hst, ho⟩ := (Opening.move_of_mem_next hnext).holds h.carries h.watched h.holds
    exact ⟨hst, h.carries.trans hst, hst.watched h.watched, ho⟩
  | background s hbg =>
    exact ⟨hbg.carries, h.carries.trans hbg.carries, hbg.carries.watched h.watched,
      h.holds.background h.watched hbg⟩

theorem Known.runs (h : Known s₀ x) (hxy : x.Runs y) : x.launcher.Carries y.launcher ∧ Known s₀ y := by
  induction hxy with
  | refl => exact ⟨.refl _, h⟩
  | tail _ hstep ih =>
    obtain ⟨hcarries, hknown⟩ := ih.2.step hstep
    exact ⟨ih.1.trans hcarries, hknown⟩

theorem known_begin (hs : Started s) : Known s (begin s) :=
  ⟨.refl s, hs.watched, rfl, rfl, hs.onlyStarted.unclaimed_eq⟩

theorem Known.outcome (h : Known s₀ x) {r : Except LauncherError String} (hr : x.opening = .returned r) :
    Opening.Outcome s₀ x.launcher x.verdict r := by
  have hx := h.holds
  rwa [hr] at hx

theorem runs_background (o : Opening) (v : Option Verdict) (h : Relation.ReflTransGen Background s t) :
    Runs ⟨s, o, v⟩ ⟨t, o, v⟩ := by
  induction h with
  | refl => exact .refl
  | tail _ hstep ih => exact ih.tail (.background _ hstep)

/-- A step of the call, or of as much of the background as the call may need to go on. -/
inductive Advance (x : Scene) : Scene → Prop
  | call (s : State) (o : Opening) (h : (s, o) ∈ x.opening.next x.launcher) :
      Advance x ⟨s, o, o.verdict?.or x.verdict⟩
  | unblocks (s : State) (h : Unblocks x.launcher s) : Advance x { x with launcher := s }

theorem Advance.step (h : x.Advance y) : x.Step y := by
  cases h with
  | call s o h => exact .call s o h
  | unblocks s h => exact .background s h.background

theorem runs_of_advance (h : Relation.ReflTransGen Advance x y) : x.Runs y :=
  Relation.ReflTransGen.mono (fun _ _ => Advance.step) _ _ h

theorem advance_unblocks (o : Opening) (v : Option Verdict) (h : Relation.ReflTransGen Unblocks s t) :
    Relation.ReflTransGen Advance ⟨s, o, v⟩ ⟨t, o, v⟩ := by
  induction h with
  | refl => exact .refl
  | tail _ hstep ih => exact ih.tail (.unblocks _ hstep)

/-- From every scene the call can still advance to its end, and without a further verdict if something has failed
before. -/
theorem Known.canAdvance (h : Known s₀ x) : ∃ y r, Relation.ReflTransGen Advance x y ∧ y.opening = .returned r ∧
    (Fails s₀ x.launcher → y.verdict = x.verdict) := by
  -- by the number of steps that the call has still to make; the background may go on in between
  induction hn : x.opening.rank using Nat.strongRecOn generalizing x with
  | ind n ih =>
    by_cases hreturned : ∃ r, x.opening = .returned r
    · obtain ⟨r, hr⟩ := hreturned
      exact ⟨x, r, .refl, hr, fun _ => rfl⟩
    · obtain ⟨t, hxt, s', o', hnext, hverdict⟩ := h.holds.canGo h.watched fun r hr => hreturned ⟨r, hr⟩
      have hadvance : Relation.ReflTransGen Advance x ⟨s', o', o'.verdict?.or x.verdict⟩ :=
        (advance_unblocks x.opening x.verdict hxt).tail (.call s' o' hnext)
      have hrank := (Opening.move_of_mem_next hnext).rank_lt
      obtain ⟨hcarries, hknown⟩ := h.runs (runs_of_advance hadvance)
      obtain ⟨y, r, hy, hr, hv⟩ := ih _ (hn ▸ hrank) hknown rfl
      refine ⟨y, r, hadvance.trans hy, hr, fun hfails => ?_⟩
      have hfails' : Fails s₀ s' := hfails.imp_right fun ⟨e, he⟩ => ⟨e, hcarries.cleaned _ he⟩
      exact (hv hfails').trans (hverdict hfails)

/-- From every scene the call can still return. -/
theorem Known.canReturn (h : Known s₀ x) : ∃ y r, x.Runs y ∧ y.opening = .returned r ∧
    (Fails s₀ x.launcher → y.verdict = x.verdict) := by
  obtain ⟨y, r, hy, hr, hv⟩ := h.canAdvance
  exact ⟨y, r, runs_of_advance hy, hr, hv⟩

/-- In whatever order the cleanup, the wait for readiness and all else go on, opening the window of a launcher that was
started comes to what the window answers, the cleanup's result and the verdict of the wait make of it; and it does
come to its end, without waiting for a verdict once the window could not be created or the cleanup has failed. -/
theorem opening_outcome (hs : Started s) (hx : (begin s).Runs x) :
    (∀ result, x.opening = .returned result → Opening.Outcome s x.launcher x.verdict result) ∧
    (∀ y r r', (begin s).Runs y → x.opening = .returned r → y.opening = .returned r' →
      x.launcher.cleaned? = y.launcher.cleaned? → x.verdict = y.verdict →
      x.launcher.calls = y.launcher.calls ∧ r = r') ∧
    (s.config.cache.clearOnStart = false → x.launcher.cleaned? = some (.ok none)) ∧
    (∃ y r, x.Runs y ∧ y.opening = .returned r ∧ (Fails s x.launcher → y.verdict = x.verdict)) := by
  have hbegin := known_begin hs
  obtain ⟨hcarries, hknown⟩ := hbegin.runs hx
  refine ⟨fun r hr => hknown.outcome hr, ?_, fun hdisabled => ?_, hknown.canReturn⟩
  · intro y r r' hy hr hr' hcleaned hverdict
    have hxr := hknown.outcome hr
    rw [hverdict] at hxr
    exact hxr.unique ((hbegin.runs hy).2.outcome hr') hcleaned
  · exact hcarries.cleaned _ (hs.onlyStarted.cleaned?_of_disabled hdisabled)

/-- A cleanup that has failed ends the call although there is no verdict; the window got one call only. -/
theorem opening_outcome_uncleaned :
    let w : World := ⟨⟨.directory [], []⟩, fun _ _ _ => .ok ⟨[], none, 0⟩⟩
    let s : State := (State.start w { config := {} }).1
    let t : State := { s with cleanup := some ⟨1, .finished (.error (.taskFailed "lost"))⟩ }
    ∃ y, (begin t).Runs y ∧ y.opening = .returned (.error (.taskFailed "lost")) ∧ y.verdict = none ∧
      y.launcher.calls = [creation t] ∧ y.launcher.ServerEnded := by
  intro w s t
  have hs : Started s := .start _ w (.new _ rfl rfl rfl) rfl
  have ht : Started t := .background s t hs (.cleanup ⟨1, .pending⟩ _ rfl rfl)
  obtain ⟨-, -, -, y, r, hy, hr, hv⟩ := opening_outcome ht (x := begin t) .refl
  obtain ⟨hall, -⟩ := opening_outcome ht hy
  have hcleaned : y.launcher.cleaned? = some (.error (.taskFailed "lost")) :=
    ((known_begin ht).runs hy).1.cleaned _ rfl
  obtain ⟨hcalls, rfl, hend⟩ := (hall r hr).notCleaned _ rfl hcleaned
  exact ⟨y, hy, hr, hv (Or.inr ⟨_, rfl⟩), hcalls, hend⟩

end Scene

end AppLauncher.Launcher
