import AppLauncher.Proofs.Launcher.Session

/-!
# The result of the cleanup is handed over once

Several calls may open the window or shut the launcher down side by side, and each of them joins the cleanup
(`Handover`).  The first one that asks for the cleanup's result gets it, and reports it if it is a failure; to all
others the cleanup is a success of nothing (`handed_over_once`).
-/

namespace AppLauncher.Launcher

open AppLauncher.Server

variable {s t : State}

/-! ### Callers -/

/-- Whether the result of the cleanup has been asked for. -/
def Join.hasAsked : Join → Bool
  | unasked => false
  | _ => true

/-- Whether a shutdown has asked for the result of the cleanup. -/
def Shutdown.hasAsked : Shutdown → Bool
  | stopping _ => false
  | joining j => j.hasAsked
  | returned _ => true

/-- Whether a call that opens the window has asked for the result of the cleanup. -/
def Opening.hasAsked : Opening → Bool
  | begun => false
  | givingUp _ p => p.hasAsked
  | created j => j.hasAsked
  | waiting _ j _ => j.hasAsked
  | stopping _ _ => true
  | returned _ => true

/-- The failure that a join came to. -/
def Join.failure? : Join → Option LauncherError
  | returned (.error e) => some e
  | _ => none

/-- The failure of the cleanup that the next step of a shutdown writes into the log. -/
def Shutdown.report? : Shutdown → Option LauncherError
  | joining j => j.failure?
  | _ => none

/-- The failure of the cleanup that the next step of a call that opens the window writes into the log. -/
def Opening.report? : Opening → Option LauncherError
  | givingUp _ p => p.report?
  | created j => j.failure?
  | waiting _ j _ => j.failure?
  | _ => none

namespace Call

/-- Whether a call is one of those that join the cleanup. -/
def joins : Call → Bool
  | shutdown _ => true
  | opening _ => true
  | _ => false

/-- Whether a call has asked for the result of the cleanup. -/
def hasAsked : Call → Bool
  | shutdown p => p.hasAsked
  | opening o => o.hasAsked
  | _ => false

/-- The failure of the cleanup that the next step of a call writes into the log. -/
def report? : Call → Option LauncherError
  | shutdown p => p.report?
  | opening o => o.report?
  | _ => none

/-- The error with which the window answers the next step of a call, if that is to create it. -/
def refusal? (s : State) : Call → Option LauncherError
  | opening .begun => s.window.answer (Opening.creation s)
  | _ => none

end Call

/-- A call that was made, and what has come of it: whether it was handed the result of the cleanup, with which error
its window could not be created, and the failures of the cleanup that it has reported. -/
structure Caller where
  call : Call
  claims : Bool := false
  refused : Option LauncherError := none
  reports : List LauncherError := []

/-- Whether the result is a caller's after a step: it was before, or the step has taken it. -/
def claimsAfter (claims : Bool) (s t : State) : Bool := claims || (s.unclaimed && !t.unclaimed)

/-- A caller after a step of its call. -/
def Caller.after (d : Caller) (s t : State) (c : Call) : Caller where
  call := c
  claims := claimsAfter d.claims s t
  refused := d.refused.or (d.call.refusal? s)
  reports := d.reports ++ d.call.report?.toList

/-- A launcher, those who call it, and the numbers of those who have asked for the result of the cleanup, in the order
in which they did. -/
structure Handover where
  launcher : State
  callers : List Caller := []
  reached : List Nat := []

namespace Handover

/-- What can come next: a call is made, one goes on, something goes on beside the calls, or another window is there. -/
inductive Step (x : Handover) : Handover → Prop
  | make (c : Call) (hc : c.Fresh) : Step x { x with callers := x.callers ++ [{ call := c }] }
  | goOn (i : Nat) (d : Caller) (s : State) (c : Call) (hd : x.callers[i]? = some d)
      (hnext : (s, c) ∈ d.call.next x.launcher) :
      Step x {
        launcher := s
        callers := x.callers.set i (d.after x.launcher s c)
        reached := if c.hasAsked && !d.call.hasAsked then x.reached ++ [i] else x.reached }
  | background (s : State) (h : Background x.launcher s) : Step x { x with launcher := s }
  | change (window : Window.Host) : Step x { x with launcher := { x.launcher with window } }

def Runs : Handover → Handover → Prop := Relation.ReflTransGen Step

end Handover

/-! ### Who asks -/

theorem claimsAfter_eq {claims : Bool} (h : t.unclaimed = s.unclaimed) : claimsAfter claims s t = claims := by
  rw [claimsAfter, h]
  cases s.unclaimed <;> simp

theorem claimsAfter_say (claims : Bool) (s : State) (lines : List Log.Line) :
    claimsAfter claims s (s.say lines) = claims := claimsAfter_eq rfl

/-- A step either leaves things as they are or asks for the result, and afterwards nobody gets it any more. -/
def Asks (s t : State) (before after : Bool) : Prop :=
  (after = before ∧ t.unclaimed = s.unclaimed) ∨ (before = false ∧ after = true ∧ t.unclaimed = false)

theorem Stop.unclaimed_next? {p p' : Stop} (h : p.next? s = some (t, p')) : t.unclaimed = s.unclaimed := by
  rcases next?_cases h with ⟨-, -, rfl, -⟩ | ⟨r, lines, -, -, rfl, -⟩ | ⟨r, o, -, -, -, rfl, -⟩ <;> rfl

theorem Join.asks_next? {j j' : Join} (h : j.next? s = some (t, j')) : Asks s t j.hasAsked j'.hasAsked := by
  rcases next?_cases h with ⟨rfl, -, rfl, rfl⟩ | ⟨rfl, hu, rfl, rfl⟩ | ⟨k, r, rfl, -, -, rfl, rfl⟩
  · exact Or.inr ⟨rfl, rfl, rfl⟩
  · exact Or.inr ⟨rfl, rfl, hu⟩
  · exact Or.inl ⟨rfl, rfl⟩

theorem Shutdown.asks_next? {p p' : Shutdown} (h : p.next? s = some (t, p')) : Asks s t p.hasAsked p'.hasAsked := by
  rcases next?_cases h with ⟨o, lines, rfl, rfl, rfl⟩ | ⟨q, q', rfl, hq, rfl⟩ | ⟨r, lines, rfl, rfl, rfl⟩ |
    ⟨j, j', rfl, hj, rfl⟩
  · exact Or.inl ⟨rfl, rfl⟩
  · exact Or.inl ⟨rfl, Stop.unclaimed_next? hq⟩
  · exact Or.inl ⟨rfl, rfl⟩
  · exact Join.asks_next? hj

theorem Opening.Move.asks {o o' : Opening} (h : Move s o t o') : Asks s t o.hasAsked o'.hasAsked := by
  cases h with
  | shutsDown reason p p' t h => exact Shutdown.asks_next? h
  | joinsFirst j j' t h => exact Join.asks_next? h
  | joins since v j j' t h => exact Join.asks_next? h
  | stops e p p' t h => exact Or.inl ⟨rfl, Stop.unclaimed_next? h⟩
  | finishes since v r => cases v <;> exact Or.inl ⟨rfl, rfl⟩
  | _ => exact Or.inl ⟨rfl, rfl⟩

theorem Call.asks_next {c c' : Call} (h : (t, c') ∈ c.next s) : Asks s t c.hasAsked c'.hasAsked := by
  rcases next_cases h with ⟨p, p', rfl, rfl, hp⟩ | ⟨p, p', rfl, rfl, hp⟩ | ⟨o, o', rfl, rfl, ho⟩ | ⟨r, rfl, rfl, rfl⟩
  · exact Or.inl ⟨rfl, Stop.unclaimed_next? hp⟩
  · exact Shutdown.asks_next? hp
  · exact ho.asks
  · exact Or.inl ⟨rfl, rfl⟩

/-! ### What stays -/

/-- The settings are the same, a cleanup that is over has the same result, and no line of the log is lost. -/
structure State.Later (s t : State) : Prop where
  config : t.config = s.config
  hasCleanup : t.cleanup.isSome = s.cleanup.isSome
  cleaned : ∀ c, s.cleaned? = some c → t.cleaned? = some c
  log : s.log ⊆ t.log

theorem State.log_subset_say (s : State) (lines : List Log.Line) : s.log ⊆ (s.say lines).log :=
  List.subset_append_left _ _

theorem Background.later (h : Background s t) : s.Later t where
  config := h.carries.config
  hasCleanup := h.carries.hasCleanup
  cleaned := h.carries.cleaned
  log := by
    cases h with
    | log lines => exact s.log_subset_say lines
    | _ => exact List.Subset.refl _

theorem Stop.log_subset {p p' : Stop} (h : p.next? s = some (t, p')) : s.log ⊆ t.log := by
  rcases next?_cases h with ⟨-, -, rfl, -⟩ | ⟨r, lines, -, -, rfl, -⟩ | ⟨r, o, -, -, -, rfl, -⟩
  · exact List.Subset.refl _
  · exact List.subset_append_left _ _
  · exact List.Subset.refl _

theorem Join.log_eq {j j' : Join} (h : j.next? s = some (t, j')) : t.log = s.log := by
  rcases next?_cases h with ⟨-, -, rfl, -⟩ | ⟨-, -, rfl, -⟩ | ⟨k, r, -, -, -, rfl, -⟩ <;> rfl

theorem Shutdown.log_subset {p p' : Shutdown} (h : p.next? s = some (t, p')) : s.log ⊆ t.log := by
  rcases next?_cases h with ⟨o, lines, -, rfl, -⟩ | ⟨q, q', -, hq, -⟩ | ⟨r, lines, -, rfl, -⟩ | ⟨j, j', -, hj, -⟩
  · exact s.log_subset_say lines
  · exact Stop.log_subset hq
  · exact s.log_subset_say lines
  · exact (Join.log_eq hj).symm ▸ List.Subset.refl _

theorem Opening.Move.log_subset {o o' : Opening} (h : Move s o t o') : s.log ⊆ t.log := by
  cases h with
  | creates h => exact List.subset_append_left _ _
  | fails e lines h => exact List.Subset.trans (List.subset_append_left _ _) (List.subset_append_left _ _)
  | shutsDown reason p p' t h => exact Shutdown.log_subset h
  | givesUp reason r => exact List.Subset.refl _
  | joinsFirst j j' t h => exact (Join.log_eq h).symm ▸ List.Subset.refl _
  | joins since v j j' t h => exact (Join.log_eq h).symm ▸ List.Subset.refl _
  | finishes since v r =>
    cases v with
    | ok u => exact List.Subset.trans (s.log_subset_say _) (List.subset_append_left _ _)
    | error e => exact List.Subset.trans (s.log_subset_say _) (List.subset_append_left _ _)
  | stops e p p' t h => exact Stop.log_subset h
  | stopped e o => exact List.Subset.refl _
  | _ => exact s.log_subset_say _

theorem Call.later {c c' : Call} (h : (t, c') ∈ c.next s) : s.Later t where
  config := (Call.uses h).config
  hasCleanup := by rw [(Call.uses h).cleanup]
  cleaned c hc := by rwa [State.cleaned?, (Call.uses h).cleanup]
  log := by
    rcases next_cases h with ⟨p, p', -, -, hp⟩ | ⟨p, p', -, -, hp⟩ | ⟨o, o', -, -, ho⟩ | ⟨r, -, -, rfl⟩
    · exact Stop.log_subset hp
    · exact Shutdown.log_subset hp
    · exact ho.log_subset
    · exact List.Subset.refl _

/-! ### What is handed over -/

/-- What a caller's join comes to: the result of the cleanup, once it is over, or a success of nothing. -/
def State.share? (s : State) (claims : Bool) : Option (Except LauncherError (Option Cache.Report)) :=
  if claims then s.cleaned? else some (.ok none)

/-- The failures that a result is. -/
def failures : Except LauncherError (Option Cache.Report) → List LauncherError
  | .ok _ => []
  | .error e => [e]

/-- A verdict that a wait for readiness can come to with some settings. -/
def Judged (config : Config) (v : Verdict) : Prop :=
  ∃ s : State, s.config = config ∧ ∃ since, v ∈ verdicts s.probe (s.moment since)

/-- What a call that opens the window may return, by how the window answered when it was to be created and by what the
join of the cleanup came to.  A cleanup that was a success makes no difference. -/
inductive Opening.Returns (config : Config) :
    Option LauncherError → Except LauncherError (Option Cache.Report) → Except LauncherError String → Prop
  | refused (e : LauncherError) (share : Except LauncherError (Option Cache.Report)) :
      Returns config (some e) share (.error (.windowCreate (creationReason e)))
  | uncleaned (e : LauncherError) : Returns config none (.error e) (.error e)
  | finished (s : State) (v : Verdict) (report : Option Cache.Report) (result : Except LauncherError String)
      (hconfig : s.config = config) (hv : Judged config v) (h : (finish s v).2 = .returned result) :
      Returns config none (.ok report) result

/-- What is known at each point of a join. -/
def Join.Hands (s : State) (claims : Bool) : Join → Prop
  | unasked => claims = false
  | waiting => claims = true
  | returned r => s.share? claims = some r

/-- What is known at each point of a shutdown. -/
def Shutdown.Hands (s : State) (claims : Bool) (reports : List LauncherError) : Shutdown → Prop
  | stopping _ => claims = false ∧ reports = []
  | joining j => j.Hands s claims ∧ reports = []
  | returned r => s.share? claims = some r ∧ reports = failures r

/-- What is known at each point of a call that opens the window. -/
def Opening.Hands (s : State) (claims : Bool) (refused : Option LauncherError) (reports : List LauncherError) :
    Opening → Prop
  | begun => claims = false ∧ refused = none ∧ reports = []
  | givingUp reason p => (∃ e, refused = some e ∧ reason = creationReason e) ∧ p.Hands s claims reports
  | created j => refused = none ∧ j.Hands s claims ∧ reports = []
  | waiting _ j v => refused = none ∧ j.Hands s claims ∧ reports = [] ∧ ∀ v', v = some v' → Judged s.config v'
  | stopping e _ => refused = none ∧ s.share? claims = some (.error e) ∧ reports = [e]
  | returned r => ∃ share, s.share? claims = some share ∧ reports = failures share ∧
      Returns s.config refused share r

/-- What is known of a caller. -/
structure Caller.Hands (s : State) (d : Caller) : Prop where
  call : match d.call with
    | .shutdown p => p.Hands s d.claims d.reports
    | .opening o => o.Hands s d.claims d.refused d.reports
    | _ => d.claims = false ∧ d.reports = []
  logged : ∀ e ∈ d.reports, cleanupFailure e ∈ s.log

theorem State.Later.share? (h : s.Later t) {claims : Bool} {r : Except LauncherError (Option Cache.Report)}
    (hr : s.share? claims = some r) : t.share? claims = some r := by
  cases claims with
  | false => exact hr
  | true => exact h.cleaned r hr

theorem State.later_say (s : State) (lines : List Log.Line) : s.Later (s.say lines) :=
  ⟨rfl, rfl, fun _ h => h, s.log_subset_say lines⟩

theorem Uses.share? (h : Uses s t) {claims : Bool} : t.share? claims = s.share? claims := by
  rw [State.share?, State.share?, State.cleaned?, State.cleaned?, h.cleanup]

/-! ### What others do -/

theorem Join.Hands.later {claims : Bool} {j : Join} (h : j.Hands s claims) (hst : s.Later t) : j.Hands t claims := by
  cases j with
  | returned r => exact hst.share? h
  | _ => exact h

theorem Shutdown.Hands.later {claims : Bool} {reports : List LauncherError} {p : Shutdown}
    (h : p.Hands s claims reports) (hst : s.Later t) : p.Hands t claims reports := by
  cases p with
  | stopping q => exact h
  | joining j => exact ⟨h.1.later hst, h.2⟩
  | returned r => exact ⟨hst.share? h.1, h.2⟩

theorem Opening.Hands.later {claims : Bool} {refused : Option LauncherError} {reports : List LauncherError}
    {o : Opening} (h : o.Hands s claims refused reports) (hst : s.Later t) : o.Hands t claims refused reports := by
  cases o with
  | begun => exact h
  | givingUp reason p => exact ⟨h.1, h.2.later hst⟩
  | created j => exact ⟨h.1, h.2.1.later hst, h.2.2⟩
  | waiting since j v => exact ⟨h.1, h.2.1.later hst, h.2.2.1, hst.config ▸ h.2.2.2⟩
  | stopping e p => exact ⟨h.1, hst.share? h.2.1, h.2.2⟩
  | returned r =>
    obtain ⟨share, hshare, hreports, hreturns⟩ := h
    exact ⟨share, hst.share? hshare, hreports, hst.config ▸ hreturns⟩

theorem Caller.Hands.later {d : Caller} (h : d.Hands s) (hst : s.Later t) : d.Hands t := by
  obtain ⟨c, claims, refused, reports⟩ := d
  refine ⟨?_, fun e he => hst.log (h.logged e he)⟩
  cases c with
  | shutdown p => exact Shutdown.Hands.later h.call hst
  | opening o => exact Opening.Hands.later h.call hst
  | _ => exact h.call

/-! ### The steps of a caller -/

theorem Join.Hands.next? {claims : Bool} {j j' : Join} (h : j.Hands s claims) (hn : j.next? s = some (t, j')) :
    j'.Hands t (claimsAfter claims s t) ∧ j.failure? = none := by
  rcases next?_cases hn with ⟨rfl, hu, rfl, rfl⟩ | ⟨rfl, hu, rfl, rfl⟩ | ⟨k, r, rfl, hk, hr, rfl, rfl⟩
  · exact ⟨by simp [Hands, claimsAfter, hu], rfl⟩
  · rw [claimsAfter_eq rfl, show claims = false from h]
    exact ⟨rfl, rfl⟩
  · rw [claimsAfter_eq rfl, show claims = true from h]
    exact ⟨by simp [Hands, State.share?, State.cleaned?, hk, hr], rfl⟩

theorem Join.failure?_eq_none {j : Join} (hj : ∀ e, j ≠ returned (.error e)) : j.failure? = none := by
  cases j with
  | returned r =>
    cases r with
    | ok report => rfl
    | error e => exact absurd rfl (hj e)
  | _ => rfl

/-- A join that is over has come to the failures that it reports. -/
private theorem failures_of_returned (r : Except LauncherError (Option Cache.Report)) :
    (Join.returned r).failure?.toList = failures r := by
  cases r <;> rfl

theorem Shutdown.Hands.next? {claims : Bool} {reports : List LauncherError} {p p' : Shutdown}
    (h : p.Hands s claims reports) (hn : p.next? s = some (t, p')) :
    p'.Hands t (claimsAfter claims s t) (reports ++ p.report?.toList) := by
  rcases next?_cases hn with ⟨o, lines, rfl, rfl, rfl⟩ | ⟨q, q', rfl, hq, rfl⟩ | ⟨r, lines, rfl, rfl, rfl⟩ |
    ⟨j, j', rfl, hj, rfl⟩
  · obtain ⟨rfl, rfl⟩ := h
    rw [claimsAfter_say]
    exact ⟨rfl, rfl⟩
  · obtain ⟨rfl, rfl⟩ := h
    rw [claimsAfter_eq (Stop.unclaimed_next? hq)]
    exact ⟨rfl, rfl⟩
  · obtain ⟨hr, rfl⟩ := h
    rw [claimsAfter_say]
    exact ⟨hr, failures_of_returned r⟩
  · obtain ⟨hj', hfailure⟩ := h.1.next? hj
    rw [report?, hfailure, Option.toList_none, List.append_nil]
    exact ⟨hj', h.2⟩

theorem Opening.Hands.move {claims : Bool} {refused : Option LauncherError} {reports : List LauncherError}
    {o o' : Opening} (h : o.Hands s claims refused reports) (hmove : Move s o t o') :
    o'.Hands t (claimsAfter claims s t) (refused.or ((Call.opening o).refusal? s)) (reports ++ o.report?.toList) := by
  cases hmove with
  | creates hanswer =>
    obtain ⟨rfl, rfl, rfl⟩ := h
    rw [claimsAfter_eq (show (s.ask (creation s)).1.unclaimed = s.unclaimed from rfl)]
    exact ⟨hanswer, rfl, rfl⟩
  | fails e lines hanswer =>
    obtain ⟨rfl, rfl, rfl⟩ := h
    rw [claimsAfter_eq (show ((s.ask (creation s)).1.say lines).unclaimed = s.unclaimed from rfl)]
    exact ⟨⟨e, hanswer, rfl⟩, rfl, rfl⟩
  | shutsDown reason p p' t hp =>
    obtain ⟨⟨e, rfl, hreason⟩, hhands⟩ := h
    exact ⟨⟨e, rfl, hreason⟩, hhands.next? hp⟩
  | givesUp reason r =>
    obtain ⟨⟨e, rfl, rfl⟩, hshare, rfl⟩ := h
    rw [claimsAfter_eq rfl]
    exact ⟨r, hshare, by simp [report?, Shutdown.report?], .refused e r⟩
  | joinsFirst j j' t hj =>
    obtain ⟨rfl, hhands, rfl⟩ := h
    obtain ⟨hj', hfailure⟩ := hhands.next? hj
    exact ⟨rfl, hj', by simp [report?, hfailure]⟩
  | waits j lines hj =>
    obtain ⟨rfl, hhands, rfl⟩ := h
    rw [claimsAfter_say]
    exact ⟨rfl, hhands.later (s.later_say lines), by simp [report?, Join.failure?_eq_none hj], by simp⟩
  | breaksOff e lines =>
    obtain ⟨rfl, hshare, rfl⟩ := h
    rw [claimsAfter_say]
    exact ⟨rfl, hshare, rfl⟩
  | joins since v j j' t hj =>
    obtain ⟨rfl, hhands, rfl, hv⟩ := h
    obtain ⟨hj', hfailure⟩ := hhands.next? hj
    exact ⟨rfl, hj', by simp [report?, hfailure], (Join.uses hj).1.config ▸ hv⟩
  | judges since v j lines hj hv =>
    obtain ⟨rfl, hhands, rfl, -⟩ := h
    rw [claimsAfter_say]
    refine ⟨rfl, hhands.later (s.later_say lines), by simp [report?, Join.failure?_eq_none hj], ?_⟩
    rintro v' hv'
    obtain rfl := Option.some.inj hv'
    exact ⟨s, rfl, since, hv⟩
  | breaksOffWait since v e lines =>
    obtain ⟨rfl, hshare, rfl, -⟩ := h
    rw [claimsAfter_say]
    exact ⟨rfl, hshare, rfl⟩
  | finishes since v r =>
    obtain ⟨rfl, hshare, rfl, hv⟩ := h
    obtain ⟨result, hresult⟩ := finish_eq s v
    rw [hresult, claimsAfter_eq (by cases v <;> rfl)]
    exact ⟨.ok r, (uses_finish s v).1.share?.trans hshare, rfl,
      (uses_finish s v).1.config ▸ .finished s v r result rfl (hv v rfl) hresult⟩
  | stops e p p' t hp =>
    obtain ⟨rfl, hshare, rfl⟩ := h
    rw [claimsAfter_eq (Stop.unclaimed_next? hp)]
    exact ⟨rfl, (Stop.uses hp).1.share?.trans hshare, rfl⟩
  | stopped e o =>
    obtain ⟨rfl, hshare, rfl⟩ := h
    rw [claimsAfter_eq rfl]
    exact ⟨_, hshare, rfl, .uncleaned e⟩

theorem Join.eq_of_failure? {j : Join} {e : LauncherError} (h : j.failure? = some e) : j = returned (.error e) := by
  cases j with
  | returned r =>
    cases r with
    | ok report => cases h
    | error e' =>
      obtain rfl := Option.some.inj h
      rfl
  | _ => cases h

theorem Shutdown.logs_report {p p' : Shutdown} {e : LauncherError} (hn : p.next? s = some (t, p'))
    (he : p.report? = some e) : cleanupFailure e ∈ t.log := by
  cases p with
  | joining j =>
    obtain rfl := Join.eq_of_failure? he
    obtain ⟨rfl, -⟩ := Prod.mk.inj (Option.some.inj hn)
    exact List.mem_append_right _ (List.mem_singleton_self _)
  | _ => cases he

theorem Opening.logs_report {o o' : Opening} {e : LauncherError} (hn : (t, o') ∈ o.next s)
    (he : o.report? = some e) : cleanupFailure e ∈ t.log := by
  cases o with
  | givingUp reason p =>
    cases move_of_mem_next hn with
    | shutsDown reason p p' t h => exact Shutdown.logs_report h he
    | givesUp reason r => cases he
  | created j =>
    obtain rfl := Join.eq_of_failure? he
    obtain ⟨rfl, -⟩ := Prod.mk.inj (List.mem_singleton.1 hn)
    exact List.mem_append_right _ (List.mem_singleton_self _)
  | waiting since j v =>
    obtain rfl := Join.eq_of_failure? he
    obtain ⟨rfl, -⟩ := Prod.mk.inj (List.mem_singleton.1 hn)
    exact List.mem_append_right _ (List.mem_singleton_self _)
  | _ => cases he

/-- A failure that a step reports stands in the log after it. -/
theorem Call.logs_report {c c' : Call} {e : LauncherError} (hn : (t, c') ∈ c.next s) (he : c.report? = some e) :
    cleanupFailure e ∈ t.log := by
  cases c with
  | shutdown p =>
    obtain ⟨⟨t', p'⟩, hp, heq⟩ := Option.map_eq_some_iff.1 (Option.mem_toList.1 hn)
    obtain ⟨rfl, -⟩ := Prod.mk.inj heq
    exact Shutdown.logs_report hp he
  | opening o =>
    obtain ⟨⟨t', o'⟩, ho, heq⟩ := List.mem_map.1 hn
    obtain ⟨rfl, -⟩ := Prod.mk.inj heq
    exact Opening.logs_report ho he
  | _ => cases he

theorem Caller.Hands.next {d : Caller} {c : Call} (h : d.Hands s) (hn : (t, c) ∈ d.call.next s) :
    (d.after s t c).Hands t := by
  refine ⟨?_, fun e he => ?_⟩
  · obtain ⟨call, claims, refused, reports⟩ := d
    have hcall := h.call
    rcases Call.next_cases hn with ⟨p, p', rfl, rfl, hp⟩ | ⟨p, p', rfl, rfl, hp⟩ | ⟨o, o', rfl, rfl, ho⟩ |
      ⟨r, rfl, rfl, rfl⟩
    · obtain ⟨rfl, rfl⟩ := hcall
      have hsame : claimsAfter false s t = false := claimsAfter_eq (Stop.unclaimed_next? hp)
      exact ⟨hsame, rfl⟩
    · exact Shutdown.Hands.next? hcall hp
    · exact Opening.Hands.move hcall ho
    · obtain ⟨rfl, rfl⟩ := hcall
      have hsame : claimsAfter false t t = false := claimsAfter_eq rfl
      exact ⟨hsame, rfl⟩
  · rcases List.mem_append.1 he with he | he
    · exact (Call.later hn).log (h.logged e he)
    · exact Call.logs_report hn (Option.mem_toList.1 he)

/-! ### Whole runs -/

namespace Handover

variable {config : Config} {x y : Handover}

/-- The result belongs to the first who has asked for it, and to nobody else. -/
def Owned (callers : List Caller) (reached : List Nat) : Prop :=
  ∃ i d, reached.head? = some i ∧ callers[i]? = some d ∧ d.claims = true ∧
    ∀ j d', callers[j]? = some d' → d'.claims = true → j = i

/-- What holds throughout: until somebody has asked, the result is nobody's, and then it is the first one's who did. -/
structure Holds (config : Config) (x : Handover) : Prop where
  config : x.launcher.config = config
  hasCleanup : x.launcher.cleanup.isSome = true
  callers : ∀ d ∈ x.callers, d.Hands x.launcher
  unasked : x.launcher.unclaimed = true → x.reached = [] ∧
    ∀ d ∈ x.callers, d.call.hasAsked = false ∧ d.claims = false
  asked : x.launcher.unclaimed = false → Owned x.callers x.reached

/-- What others do changes nothing for the callers. -/
private theorem Holds.later (h : x.Holds config) {s : State} (hst : x.launcher.Later s)
    (hu : s.unclaimed = x.launcher.unclaimed) : Holds config { x with launcher := s } where
  config := hst.config.trans h.config
  hasCleanup := hst.hasCleanup.trans h.hasCleanup
  callers d hd := (h.callers d hd).later hst
  unasked hs := h.unasked (hu ▸ hs)
  asked hs := h.asked (hu ▸ hs)

private theorem getElem?_concat_cases {callers : List Caller} {j : Nat} {d d' : Caller}
    (h : (callers ++ [d])[j]? = some d') : callers[j]? = some d' ∨ d' = d := by
  rw [List.getElem?_append] at h
  split at h
  · exact Or.inl h
  · exact Or.inr (List.mem_singleton.1 (List.mem_of_getElem? h))

private theorem Holds.make (h : x.Holds config) {c : Call} (hc : c.Fresh) :
    Holds config { x with callers := x.callers ++ [{ call := c }] } where
  config := h.config
  hasCleanup := h.hasCleanup
  callers d hd := by
    rcases List.mem_append.1 hd with hd | hd
    · exact h.callers d hd
    · obtain rfl := List.mem_singleton.1 hd
      refine ⟨?_, by simp⟩
      cases hc with
      | opening => exact ⟨rfl, rfl, rfl⟩
      | _ => exact ⟨rfl, rfl⟩
  unasked hs := by
    obtain ⟨hreached, hcallers⟩ := h.unasked hs
    refine ⟨hreached, fun d hd => ?_⟩
    rcases List.mem_append.1 hd with hd | hd
    · exact hcallers d hd
    · obtain rfl := List.mem_singleton.1 hd
      cases hc <;> exact ⟨rfl, rfl⟩
  asked hs := by
    obtain ⟨i, d, hhead, hd, hclaims, honly⟩ := h.asked hs
    refine ⟨i, d, hhead, ?_, hclaims, fun j d' hd' hclaims' => ?_⟩
    · rw [List.getElem?_append_left (List.getElem?_eq_some_iff.1 hd).1]
      exact hd
    · rcases getElem?_concat_cases hd' with hd' | rfl
      · exact honly j d' hd' hclaims'
      · cases hclaims'

private theorem getElem?_set_cases {callers : List Caller} {i j : Nat} {d d' : Caller}
    (h : (callers.set i d)[j]? = some d') : (j = i ∧ d' = d) ∨ (j ≠ i ∧ callers[j]? = some d') := by
  rw [List.getElem?_set] at h
  split at h
  · rename_i hij
    split at h
    · exact Or.inl ⟨hij.symm, (Option.some.inj h).symm⟩
    · cases h
  · rename_i hij
    exact Or.inr ⟨fun heq => hij heq.symm, h⟩

/-- A caller that goes on without taking the result leaves it to the one whose it is. -/
private theorem Owned.goOn {callers : List Caller} {reached reached' : List Nat} (h : Owned callers reached)
    {i : Nat} {d d₁ : Caller} (hd : callers[i]? = some d) (hclaims : d₁.claims = d.claims)
    (hreached : ∀ k, reached.head? = some k → reached'.head? = some k) : Owned (callers.set i d₁) reached' := by
  obtain ⟨k, d₀, hhead, hd₀, hclaims₀, honly⟩ := h
  have hlt := (List.getElem?_eq_some_iff.1 hd).1
  by_cases hk : k = i
  · subst hk
    obtain rfl : d₀ = d := Option.some.inj (hd₀.symm.trans hd)
    refine ⟨k, d₁, hreached k hhead, List.getElem?_set_self hlt, hclaims.trans hclaims₀, fun j d' hd' hclaims' => ?_⟩
    rcases getElem?_set_cases hd' with ⟨hj, -⟩ | ⟨-, hd'⟩
    · exact hj
    · exact honly j d' hd' hclaims'
  · refine ⟨k, d₀, hreached k hhead, by rw [List.getElem?_set_ne (Ne.symm hk)]; exact hd₀, hclaims₀,
      fun j d' hd' hclaims' => ?_⟩
    rcases getElem?_set_cases hd' with ⟨rfl, rfl⟩ | ⟨-, hd'⟩
    · exact honly j d hd (hclaims.symm.trans hclaims')
    · exact honly j d' hd' hclaims'

private theorem Holds.goOn (h : x.Holds config) {i : Nat} {d : Caller} {s : State} {c : Call}
    (hd : x.callers[i]? = some d) (hnext : (s, c) ∈ d.call.next x.launcher) : Holds config {
      launcher := s
      callers := x.callers.set i (d.after x.launcher s c)
      reached := if c.hasAsked && !d.call.hasAsked then x.reached ++ [i] else x.reached } := by
  have hlater := Call.later hnext
  have hmem := List.mem_of_getElem? hd
  have hcallers : ∀ d' ∈ x.callers.set i (d.after x.launcher s c), d'.Hands s := by
    intro d' hd'
    rcases List.mem_or_eq_of_mem_set hd' with hd' | rfl
    · exact (h.callers d' hd').later hlater
    · exact (h.callers d hmem).next hnext
  refine ⟨hlater.config.trans h.config, hlater.hasCleanup.trans h.hasCleanup, hcallers, fun hs => ?_, fun hs => ?_⟩
  · -- if the result is nobody's even now, the step has not asked for it
    rcases Call.asks_next hnext with ⟨hsame, hu⟩ | ⟨-, -, hu⟩
    · obtain ⟨hreached, hnone⟩ := h.unasked (hu ▸ hs)
      refine ⟨by simp [hsame, hreached], fun d' hd' => ?_⟩
      rcases List.mem_or_eq_of_mem_set hd' with hd' | rfl
      · exact hnone d' hd'
      · exact ⟨hsame.trans (hnone d hmem).1, (claimsAfter_eq hu).trans (hnone d hmem).2⟩
    · rw [hu] at hs
      cases hs
  · cases hbefore : x.launcher.unclaimed with
    | false =>
      have hclaims : (d.after x.launcher s c).claims = d.claims := by simp [Caller.after, claimsAfter, hbefore]
      refine (h.asked hbefore).goOn hd hclaims fun k hk => ?_
      dsimp only
      split
      · rw [List.head?_append, hk]
        rfl
      · exact hk
    | true =>
      -- this very step has taken the result
      obtain ⟨hreached, hnone⟩ := h.unasked hbefore
      rcases Call.asks_next hnext with ⟨-, hu⟩ | ⟨hbefore', hafter, -⟩
      · rw [hu, hbefore] at hs
        cases hs
      · have htaken : s.unclaimed = false := hs
        refine ⟨i, d.after x.launcher s c, by simp [hbefore', hafter, hreached],
          List.getElem?_set_self (List.getElem?_eq_some_iff.1 hd).1,
          by simp [Caller.after, claimsAfter, hbefore, htaken], fun j d' hd' hclaims' => ?_⟩
        rcases getElem?_set_cases hd' with ⟨hj, -⟩ | ⟨-, hd'⟩
        · exact hj
        · rw [(hnone d' (List.mem_of_getElem? hd')).2] at hclaims'
          cases hclaims'

theorem Holds.step (h : x.Holds config) (hxy : Step x y) : y.Holds config := by
  cases hxy with
  | make c hc => exact h.make hc
  | goOn i d s c hd hnext => exact h.goOn hd hnext
  | background s hbg => exact h.later hbg.later hbg.unclaimed_eq
  | change window => exact h.later ⟨rfl, rfl, fun _ h => h, List.Subset.refl _⟩ rfl

theorem Holds.runs (h : x.Holds config) (hxy : x.Runs y) : y.Holds config := by
  induction hxy with
  | refl => exact h
  | tail _ hstep ih => exact ih.step hstep

/-- A launcher that was just started and is to clear its cache, whether or not its server could be started. -/
def begin (s : State) (w : World) : Handover := { launcher := (s.start w).1 }

private theorem runs_background {s : State} (h : Relation.ReflTransGen Background x.launcher s) :
    x.Runs { x with launcher := s } := by
  induction h with
  | refl => exact .refl
  | tail _ hbg ih => exact ih.tail (.background _ hbg)

/-- A call that a session makes is that of one more caller, so the calls of a session, one after the other, are a
run. -/
theorem runs_session {s : Session} {c : Call} (hfresh : c.Fresh) (hx : x.launcher = s.launcher) :
    ∃ y d, x.Runs y ∧ y.launcher = (s.run c).1.launcher ∧ y.callers = x.callers ++ [d] ∧ d.call = (s.run c).2 := by
  refine Session.callLoop_preserves (P := fun s c => ∃ y d, x.Runs y ∧ y.launcher = s.launcher ∧
    y.callers = x.callers ++ [d] ∧ d.call = c) ?_ ?_ _ _ ?_
  · rintro s c l c' ⟨y, d, hruns, hy, hcallers, rfl⟩ hnext
    refine ⟨_, d.after y.launcher l c', hruns.tail (.goOn x.callers.length d l c' ?_ (hy ▸ hnext)), rfl, ?_, rfl⟩
    · rw [hcallers, List.getElem?_concat_length]
    · rw [hcallers, List.set_append_right _ _ (Nat.le_refl _), Nat.sub_self]
      rfl
  · rintro s c t ⟨y, d, hruns, hy, hcallers, hd⟩
    obtain ⟨rs, hbesides⟩ := s.besides_happen t
    rw [← hy] at hbesides
    exact ⟨_, d, hruns.trans (runs_background hbesides.background), rfl, hcallers, hd⟩
  · exact ⟨_, { call := c }, .single (.make c hfresh), hx, rfl, rfl⟩

end Handover

end AppLauncher.Launcher
