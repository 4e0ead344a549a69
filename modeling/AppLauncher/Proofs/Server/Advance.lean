import AppLauncher.Proofs.Server.History

/-!
# A server that goes on by itself

Whatever its process does, a server that goes on by itself has a history of reads and events in which neither its
handle nor the background is dropped (`proceeds_advance`).
-/

namespace AppLauncher.Server

open AppLauncher.Output AppLauncher.Program

namespace Happening

def KeepsHandle (h : Happening) : Prop := h ≠ event .handleDropped

theorem events_map_read (s : Stream) (rs : List Read) : events (rs.map (read s)) = [] := by
  simp [events, event?]

theorem reads_map_read (s : Stream) (rs : List Read) : reads s (rs.map (read s)) = rs := by
  induction rs with
  | nil => rfl
  | cons r rs ih =>
    have hr : read? s (read s r) = some r := by simp [read?]
    rw [List.map_cons, reads, List.filterMap_cons_some hr]
    exact congrArg (r :: ·) ih

theorem reads_map_read_of_ne {s s' : Stream} (h : s' ≠ s) (rs : List Read) : reads s (rs.map (read s')) = [] := by
  simp [reads, read?, h]

theorem events_map_event (es : List Event) : events (es.map event) = es := by
  simp [events, event?, Function.comp_def]

theorem reads_map_event (s : Stream) (es : List Event) : reads s (es.map event) = [] := by
  simp [reads, read?]

end Happening

open Happening

namespace Running

variable {r r' r'' : Running}

/-- How the sinks of both streams work when they are captured. -/
def captured : Sinks := fun _ => Capture.operations

/-- A server goes on by a history in which neither its handle nor the background is dropped. -/
def Proceeds (r r' : Running) : Prop :=
  ∃ hs : List Happening, (∀ h ∈ hs, h.KeepsHandle ∧ h.KeepsBackground) ∧ Continues captured hs r r'

theorem Proceeds.trans (h : r.Proceeds r') (h' : r'.Proceeds r'') : r.Proceeds r'' := by
  obtain ⟨hs, hks, hr⟩ := h
  obtain ⟨hs', hks', hr'⟩ := h'
  exact ⟨hs ++ hs', fun h hh => (List.mem_append.1 hh).elim (hks h) (hks' h), hr.trans hr'⟩

theorem proceeds_of_eq (hsupervision : r'.supervision = r.supervision) (hstdout : r'.stdout = r.stdout)
    (hstderr : r'.stderr = r.stderr) (hforwards : r'.forwards = r.forwards) : r.Proceeds r' :=
  ⟨[], by simp, hsupervision, fun s => by cases s with
    | stdout => exact hstdout
    | stderr => exact hstderr, hforwards⟩

theorem Proceeds.refl (r : Running) : r.Proceeds r := proceeds_of_eq rfl rfl rfl rfl

/-- A server of which only the supervision goes on. -/
theorem continues_of_events (sinks : Sinks) (es : List Event) (hsupervision : r'.supervision = r.supervision.run es)
    (hstdout : r'.stdout = r.stdout) (hstderr : r'.stderr = r.stderr) (hforwards : r'.forwards = r.forwards) :
    Continues sinks (es.map .event) r r' := by
  refine ⟨?_, fun s => ?_, hforwards⟩
  · rw [events_map_event, hsupervision]
  · rw [reads_map_event]
    cases s with
    | stdout => exact hstdout
    | stderr => exact hstderr

theorem keeps_map_event {es : List Event} (hes : ∀ e ∈ es, e ≠ .handleDropped ∧ e ≠ .backgroundDropped) :
    ∀ h ∈ es.map Happening.event, h.KeepsHandle ∧ h.KeepsBackground := by
  intro h hh
  obtain ⟨e, he, rfl⟩ := List.mem_map.1 hh
  simpa [KeepsHandle, KeepsBackground] using hes e he

theorem proceeds_of_events (es : List Event) (hes : ∀ e ∈ es, e ≠ .handleDropped ∧ e ≠ .backgroundDropped)
    (hsupervision : r'.supervision = r.supervision.run es) (hstdout : r'.stdout = r.stdout)
    (hstderr : r'.stderr = r.stderr) (hforwards : r'.forwards = r.forwards) : r.Proceeds r' :=
  ⟨es.map .event, keeps_map_event hes, continues_of_events captured es hsupervision hstdout hstderr hforwards⟩

theorem Continues.goesOn {sinks : Sinks} {hs : List Happening} (h : Continues sinks hs r r')
    (hks : ∀ h ∈ hs, h.KeepsHandle ∧ h.KeepsBackground) : r.GoesOn r' := by
  refine ⟨events hs, fun e he => ?_, h.supervision_eq⟩
  obtain ⟨h, hh, he⟩ := List.mem_filterMap.1 he
  cases h with
  | read s x => simp [event?] at he
  | event e =>
    obtain rfl := Option.some.inj he
    simpa [KeepsHandle, KeepsBackground] using hks _ hh

/-! ### What a server does -/

theorem proceeds_read (r : Running) (s : Stream) (rs : List Read) : r.Proceeds (r.read s rs).1 := by
  rw [read]
  split
  · refine ⟨rs.map (.read s), by simp [KeepsHandle, KeepsBackground], ?_, fun s' => ?_, ?_⟩
    · rw [events_map_read]
      exact supervision_setForwarding r s _
    · by_cases hs : s = s'
      · subst hs
        rw [reads_map_read]
        cases s <;> rfl
      · rw [reads_map_read_of_ne hs]
        cases s <;> cases s' <;> first | rfl | exact absurd rfl hs
    · cases s <;> rfl
  · exact .refl r

theorem proceeds_release (r : Running) : r.Proceeds r.release.1 := by
  rw [release]
  split
  · exact (proceeds_read r .stdout [.bytes []]).trans (proceeds_read _ .stderr [.bytes []])
  · exact .refl r

theorem proceeds_settle (r : Running) : r.Proceeds r.settle.1 :=
  proceeds_of_events [.watcherKills, .watcherReaps, .watcherRecords, .watcherPublishes] (by simp) rfl rfl rfl rfl

theorem proceeds_react (r : Running) : r.Proceeds r.react.1 := by
  let orphaned : Running := { r.settle.1 with life := r.settle.1.life.orphaned }
  have hreact : r.react.1 = r.settle.1 ∨ r.react.1 = orphaned.release.1 := by
    simp only [react]
    split
    · exact Or.inr rfl
    · exact Or.inl rfl
  have horphaned : r.settle.1.Proceeds orphaned := proceeds_of_eq rfl rfl rfl rfl
  rcases hreact with h | h
  · rw [h]
    exact r.proceeds_settle
  · rw [h]
    exact (r.proceeds_settle.trans horphaned).trans orphaned.proceeds_release

theorem proceeds_childEnds (r : Running) (status : Status) : r.Proceeds (r.childEnds status).1 := by
  let ended : Running := { r with life := r.life.orphaned, supervision := r.supervision.step (.childEnds status) }
  have hended : r.Proceeds ended := proceeds_of_events [.childEnds status] (by simp) rfl rfl rfl rfl
  exact (hended.trans ended.proceeds_settle).trans (proceeds_release _)

theorem proceeds_act (r : Running) (a : Action) : r.Proceeds (r.act a).1 := by
  cases a with
  | write s bytes itself =>
    rw [act]
    split
    · exact proceeds_read r s _
    · split
      · exact proceeds_childEnds r .brokenPipe
      · exact .refl r
  | close s => exact proceeds_read r s _
  | ignoreBrokenPipe => exact proceeds_of_eq rfl rfl rfl rfl
  | signalParent n => exact proceeds_of_eq rfl rfl rfl rfl

theorem proceeds_wait (r : Running) (time : Nat) : r.Proceeds (r.wait time) :=
  proceeds_of_events [.tick _] (by simp) rfl rfl rfl rfl

private theorem proceeds_finishAt (r : Running) (time : Nat) : r.Proceeds (goOn.finishAt time r).1 := by
  rw [goOn.finishAt]
  split
  · split
    · exact proceeds_childEnds r _
    · exact proceeds_release r
  · exact proceeds_release r

theorem proceeds_goOn (r : Running) (time : Nat) : r.Proceeds (r.goOn time).1 := by
  rw [goOn]
  split
  · rename_i e rest _
    split
    · have hrest : r.Proceeds { r with life := { r.life with events := rest } } := proceeds_of_eq rfl rfl rfl rfl
      exact hrest.trans (proceeds_act _ e.action)
    · exact proceeds_finishAt r time
  · exact proceeds_finishAt r time

theorem proceeds_happen (r : Running) (time : Nat) : r.Proceeds (r.happen time).1 := by
  rw [happen]
  split
  · exact r.proceeds_react
  · exact (r.proceeds_wait time).trans (proceeds_goOn _ time)

private theorem proceeds_advanceLoop (time n : Nat) (r : Running) (log : List Log.Line) :
    r.Proceeds (advanceLoop time n r log).1 := by
  induction n generalizing r log with
  | zero => exact r.proceeds_wait time
  | succ n ih =>
    unfold advanceLoop
    split
    · split
      · exact (r.proceeds_happen _).trans (ih _ _)
      · exact r.proceeds_wait time
    · exact r.proceeds_wait time

/-- However its process behaves, a server goes on by a history. -/
theorem proceeds_advance (r : Running) (time : Nat) : r.Proceeds (r.advance time).1 := proceeds_advanceLoop time _ r []

end Running

end AppLauncher.Server
