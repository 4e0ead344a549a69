import AppLauncher.Proofs.Output.Delivery
import AppLauncher.Proofs.Server.Running

/-!
# The history of a server

A server comes to what it is by reads of its two streams and by events of its supervision, in any order and whatever
its sinks answer (`Happening`).  Each of its parts depends on its own share of the history only.  So the watched line
is known to be seen exactly if standard output has delivered it, and known not to come exactly if standard output has
ended without it (`readyLine?_eq_true_iff`, `readyLine?_eq_false_iff`).
-/

namespace AppLauncher.Server

open AppLauncher.Output AppLauncher.Program

/-- What happens to a server. -/
inductive Happening
  | read (s : Stream) (r : Read)
  | event (e : Event)

/-- How the sinks of both streams work. -/
abbrev Sinks := Stream → Sink Capture

namespace Happening

def read? (s : Stream) : Happening → Option Read
  | read s' r => if s' = s then some r else none
  | event _ => none

def event? : Happening → Option Event
  | read .. => none
  | event e => some e

/-- Whatever runs in the background is not dropped. -/
def KeepsBackground (h : Happening) : Prop := h ≠ event .backgroundDropped

def reads (s : Stream) (hs : List Happening) : List Read := hs.filterMap (read? s)

def events (hs : List Happening) : List Event := hs.filterMap event?

theorem reads_append (s : Stream) (hs hs' : List Happening) : reads s (hs ++ hs') = reads s hs ++ reads s hs' :=
  List.filterMap_append

theorem events_append (hs hs' : List Happening) : events (hs ++ hs') = events hs ++ events hs' :=
  List.filterMap_append

theorem ne_backgroundDropped_of_mem_events {hs : List Happening} (hks : ∀ h ∈ hs, h.KeepsBackground) {e : Event}
    (he : e ∈ events hs) : e ≠ .backgroundDropped := by
  rintro rfl
  obtain ⟨h, hh, he⟩ := List.mem_filterMap.1 he
  cases h with
  | read s r => simp [event?] at he
  | event e =>
    obtain rfl := Option.some.inj he
    exact hks _ hh rfl

end Happening

open Happening

namespace Running

variable {sinks : Sinks} {r : Running} {hs : List Happening}

/-- The server after something has happened. -/
def after (sinks : Sinks) (r : Running) : Happening → Running
  | .read s x => r.setForwarding s ((r.forwarding s).step (sinks s) x)
  | .event e => { r with supervision := r.supervision.step e }

def afterAll (sinks : Sinks) (r : Running) (hs : List Happening) : Running := hs.foldl (after sinks) r

/-! ### The parts of a server -/

theorem supervision_after (sinks : Sinks) (r : Running) (h : Happening) :
    (r.after sinks h).supervision = r.supervision.run h.event?.toList := by
  cases h with
  | read s x => exact supervision_setForwarding r s _
  | event e => rfl

theorem supervision_afterAll (sinks : Sinks) (r : Running) (hs : List Happening) :
    (r.afterAll sinks hs).supervision = r.supervision.run (events hs) := by
  induction hs generalizing r with
  | nil => rfl
  | cons h hs ih =>
    have hevents : events (h :: hs) = h.event?.toList ++ events hs := events_append [h] hs ▸ by
      cases h <;> rfl
    rw [hevents, Supervision.run_append, ← supervision_after sinks]
    exact ih (r.after sinks h)

theorem forwarding_after (sinks : Sinks) (r : Running) (s : Stream) (h : Happening) :
    (r.after sinks h).forwarding s = (h.read? s).toList.foldl (Forwarding.step (sinks s)) (r.forwarding s) := by
  cases h with
  | read s' x => cases s <;> cases s' <;> rfl
  | event e => cases s <;> rfl

theorem forwarding_afterAll (sinks : Sinks) (r : Running) (s : Stream) (hs : List Happening) :
    (r.afterAll sinks hs).forwarding s = (reads s hs).foldl (Forwarding.step (sinks s)) (r.forwarding s) := by
  induction hs generalizing r with
  | nil => rfl
  | cons h hs ih =>
    have hreads : reads s (h :: hs) = (h.read? s).toList ++ reads s hs := by
      cases hr : h.read? s <;> simp [reads, hr]
    rw [hreads, List.foldl_append, ← forwarding_after sinks]
    exact ih (r.after sinks h)

theorem forwards_after (sinks : Sinks) (r : Running) (h : Happening) : (r.after sinks h).forwards = r.forwards := by
  cases h with
  | read s x => cases s <;> rfl
  | event e => rfl

theorem forwards_afterAll (sinks : Sinks) (r : Running) (hs : List Happening) :
    (r.afterAll sinks hs).forwards = r.forwards := by
  induction hs generalizing r with
  | nil => rfl
  | cons h hs ih => exact (ih (r.after sinks h)).trans (forwards_after sinks r h)

/-! ### Servers with a history -/

/-- What `r` has become by a history; what is left of its process is not looked at. -/
structure Continues (sinks : Sinks) (hs : List Happening) (r r' : Running) : Prop where
  supervision_eq : r'.supervision = r.supervision.run (events hs)
  forwarding_eq : ∀ s, r'.forwarding s = (reads s hs).foldl (Forwarding.step (sinks s)) (r.forwarding s)
  forwards_eq : r'.forwards = r.forwards

theorem continues_afterAll (sinks : Sinks) (r : Running) (hs : List Happening) :
    Continues sinks hs r (r.afterAll sinks hs) :=
  ⟨supervision_afterAll sinks r hs, fun s => forwarding_afterAll sinks r s hs, forwards_afterAll sinks r hs⟩

theorem Continues.trans {r' r'' : Running} {hs' : List Happening} (h : Continues sinks hs r r')
    (h' : Continues sinks hs' r' r'') : Continues sinks (hs ++ hs') r r'' where
  supervision_eq := by rw [h'.supervision_eq, h.supervision_eq, events_append, Supervision.run_append]
  forwarding_eq s := by rw [h'.forwarding_eq, h.forwarding_eq, reads_append, List.foldl_append]
  forwards_eq := h'.forwards_eq.trans h.forwards_eq

/-- A server that was started to watch for a line, if for any, and has come to what it is by a history. -/
def Past (sinks : Sinks) (line : Option String) (hs : List Happening) (r : Running) : Prop :=
  ∃ clock pid b, Continues sinks hs (start clock pid b line) r

namespace Past

variable {line : Option String}

theorem sound (h : r.Past sinks line hs) (hks : ∀ h ∈ hs, h.KeepsBackground) : r.supervision.Sound := by
  obtain ⟨clock, pid, b, hr⟩ := h
  rw [hr.supervision_eq]
  exact (Supervision.sound_start clock).run fun e he => ne_backgroundDropped_of_mem_events hks he

theorem stdout_eq (h : r.Past sinks line hs) :
    r.stdout = (reads .stdout hs).foldl (Forwarding.step (sinks .stdout))
      { sink := {}, watch := line.map fun l => .new (Text.Utf8.ofString l) } := by
  obtain ⟨clock, pid, b, hr⟩ := h
  exact hr.forwarding_eq .stdout

theorem afterAll (h : r.Past sinks line hs) (hs' : List Happening) :
    (r.afterAll sinks hs').Past sinks line (hs ++ hs') := by
  obtain ⟨clock, pid, b, hr⟩ := h
  exact ⟨clock, pid, b, hr.trans (continues_afterAll sinks r hs')⟩

theorem forwards (h : r.Past sinks line hs) : r.forwards = true := by
  obtain ⟨clock, pid, b, hr⟩ := h
  exact hr.forwards_eq

theorem isNone_watch (h : r.Past sinks line hs) : r.stdout.watch.isNone = line.isNone := by
  obtain ⟨cs, b, -, hwatch, -⟩ := Forwarding.foldl_step_split (s := sinks .stdout)
    (f := { sink := {}, watch := line.map fun l => .new (Text.Utf8.ofString l) }) rfl (reads .stdout hs)
  rw [h.stdout_eq, hwatch]
  cases line <;> rfl

theorem lineSeen_iff (h : r.Past sinks line hs) : r.stdout.lineSeen = true ↔
    ∃ l, line = some l ∧ Delivered (sinks .stdout) {} (Text.Utf8.ofString l) (reads .stdout hs) := by
  cases line with
  | none =>
    have hwatch := h.isNone_watch
    simp [Forwarding.lineSeen, Option.isNone_iff_eq_none.1 hwatch]
  | some l =>
    have hseen : r.stdout.lineSeen = true ↔
        Delivered (sinks .stdout) {} (Text.Utf8.ofString l) (reads .stdout hs) := by
      rw [h.stdout_eq]
      exact Forwarding.lineSeen_iff (sinks .stdout) {} (Text.Utf8.ofString l) (reads .stdout hs)
    simpa using hseen

theorem isOver_and_not_lineSeen_iff {l : String} (h : r.Past sinks (some l) hs) :
    (r.stdout.isOver = true ∧ r.stdout.lineSeen = false) ↔
      EndedWithout (sinks .stdout) {} (Text.Utf8.ofString l) (reads .stdout hs) := by
  rw [h.stdout_eq]
  exact Forwarding.isOver_and_not_lineSeen_iff (sinks .stdout) {} (Text.Utf8.ofString l) (reads .stdout hs)

theorem readyLine?_eq_true_iff (h : r.Past sinks line hs) : r.readyLine? = some true ↔
    ∃ l, line = some l ∧ Delivered (sinks .stdout) {} (Text.Utf8.ofString l) (reads .stdout hs) := by
  rw [← h.lineSeen_iff, readyLine?]
  cases r.stdout.lineSeen with
  | true => simp
  | false => simp only [Bool.false_eq_true, if_false, iff_false]; split <;> simp

/-- It is known that the watched line will not be seen exactly if there is none, or standard output has ended without
it. -/
theorem readyLine?_eq_false_iff (h : r.Past sinks line hs) : r.readyLine? = some false ↔
    line = none ∨ ∃ l, line = some l ∧
      EndedWithout (sinks .stdout) {} (Text.Utf8.ofString l) (reads .stdout hs) := by
  cases line with
  | none =>
    have hwatch := h.isNone_watch
    simp [readyLine?, Forwarding.lineSeen, Option.isNone_iff_eq_none.1 hwatch]
  | some l =>
    have hwatch := h.isNone_watch
    have hover := h.isOver_and_not_lineSeen_iff
    simp only [reduceCtorEq, Option.some.injEq, false_or, exists_eq_left', ← hover, readyLine?, hwatch, h.forwards]
    cases r.stdout.lineSeen <;> cases r.stdout.isOver <;> simp

end Past

end Running

end AppLauncher.Server
