import AppLauncher.Output.BoundedSink
import AppLauncher.Output.Capture
import AppLauncher.Proofs.Output.Delivery
import AppLauncher.Word

/-!
# What a sink gets to see

All calls to a sink can be noted (`Sink.recorded`), which changes nothing about a forwarding (`forward_recorded`), and
neither does a watch (`forward_unwatched`).  The calls of a forwarding are a write and a flush for every chunk that was
delivered, and then those of its end: the close at the end of the stream, or what led to the first failure
(`Ending.Of`).  So the sink gets the stream from its beginning, in order, and all of it exactly if the forwarding
succeeds (`forward_exact`).  The number of bytes is one of 64 bits wherever the length of the stream is
(`total_lt_wordCount`).
-/

namespace AppLauncher.Output

/-- What can be read: chunks of bytes, and then the end of the stream or a fault. -/
structure Source where
  chunks : List (List UInt8)
  failure? : Option Fault
  ne_nil : ∀ c ∈ chunks, c ≠ []

def Source.stream (r : Source) : List UInt8 := r.chunks.flatten

/-- What the reads of a source give before its end. -/
def Source.reads (r : Source) : List Read := r.chunks.map .bytes ++ (r.failure?.map Read.failed).toList

/-- The bytes that a read gives. -/
def Read.given : Read → List UInt8
  | bytes bs => bs
  | failed _ => []

theorem Source.given_reads (r : Source) : (r.reads ++ [Read.bytes []]).flatMap Read.given = r.stream := by
  have hchunks : (r.chunks.map Read.bytes).flatMap Read.given = r.chunks.flatten := by
    rw [List.flatMap_map]
    exact List.flatMap_id
  cases hfailure : r.failure? <;> simp [Source.reads, Source.stream, hchunks, hfailure, Read.given]

/-- A sink that knows which bytes it has taken: of what it is given always the first ones, and all of them if the
write succeeds. -/
structure Writer (σ : Type) extends Sink σ where
  taken : σ → List UInt8
  taken_writeAll : ∀ bs a, ∃ n, taken (writeAll bs a).sink = taken a ++ bs.take n
  taken_of_written : ∀ bs a, (writeAll bs a).fault? = none → taken (writeAll bs a).sink = taken a ++ bs
  taken_flush : ∀ a, taken (flush a).sink = taken a
  taken_close : ∀ a, taken (close a).sink = taken a

/-- A call to a sink, and its fault if it failed. -/
inductive Sink.Call
  | write (bs : List UInt8) (fault? : Option Fault)
  | flush (fault? : Option Fault)
  | close (fault? : Option Fault)
  deriving DecidableEq

namespace Sink.Call

def fault? : Sink.Call → Option Fault
  | write _ f => f
  | flush f => f
  | close f => f

/-- The bytes that a call gives to the sink. -/
def given : Sink.Call → List UInt8
  | write bs _ => bs
  | _ => []

/-- The calls that deliver a chunk. -/
def delivery (c : List UInt8) : List Sink.Call := [write c none, flush none]

end Sink.Call

/-- The sink with all calls to it.  It tells of no events, so that those of a forwarding are its reads. -/
def Sink.recorded {σ : Type} (s : Sink σ) : Sink (σ × List Sink.Call) where
  writeAll bs a := ⟨((s.writeAll bs a.1).sink, a.2 ++ [.write bs (s.writeAll bs a.1).fault?]), [],
    (s.writeAll bs a.1).fault?⟩
  flush a := ⟨((s.flush a.1).sink, a.2 ++ [.flush (s.flush a.1).fault?]), [], (s.flush a.1).fault?⟩
  close a := ⟨((s.close a.1).sink, a.2 ++ [.close (s.close a.1).fault?]), [], (s.close a.1).fault?⟩

/-- Whether something was read, or could not be. -/
def Event.isRead : Event → Bool
  | .read _ => true
  | .readFailed => true
  | _ => false

def Forwarding.reads {σ : Type} (f : Forwarding σ) : List Event := f.events.filter Event.isRead

/-- How a forwarding ends: its last calls and its last read, what the sink takes by them, and the result. -/
structure Ending where
  calls : List Sink.Call
  read : Event
  taken : List UInt8
  result : Except Fault Nat

/-- The endings of a forwarding that has delivered `n` bytes, by the chunks that are left and the source's fault. -/
inductive Ending.Of (failure? : Option Fault) (n : Nat) : List (List UInt8) → Ending → Prop
  | finished (h : failure? = none) : Of failure? n [] ⟨[.close none], .read 0, [], .ok n⟩
  | closeFails (e : Fault) (h : failure? = none) : Of failure? n [] ⟨[.close (some e)], .read 0, [], .error e⟩
  | readFails (e : Fault) (h : failure? = some e) : Of failure? n [] ⟨[], .readFailed, [], .error e⟩
  | writeFails (c : List UInt8) (rest : List (List UInt8)) (e : Fault) (k : Nat) :
      Of failure? n (c :: rest) ⟨[.write c (some e)], .read c.length, c.take k, .error e⟩
  | flushFails (c : List UInt8) (rest : List (List UInt8)) (e : Fault) :
      Of failure? n (c :: rest) ⟨[.write c none, .flush (some e)], .read c.length, c, .error e⟩

/-! ### Deliveries and endings -/

section Endings

variable {failure? : Option Fault} {n m : Nat} {cs rest : List (List UInt8)} {x : Ending}

theorem given_deliveries (cs : List (List UInt8)) :
    (cs.flatMap Sink.Call.delivery).flatMap Sink.Call.given = cs.flatten := by
  induction cs with
  | nil => rfl
  | cons c cs ih =>
    rw [List.flatMap_cons, List.flatMap_append, ih, List.flatten_cons]
    simp [Sink.Call.delivery, Sink.Call.given]

theorem fault?_of_mem_deliveries {call : Sink.Call} (h : call ∈ cs.flatMap Sink.Call.delivery) :
    call.fault? = none := by
  obtain ⟨c, -, hcall⟩ := List.mem_flatMap.1 h
  simp only [Sink.Call.delivery, List.mem_cons, List.not_mem_nil, or_false] at hcall
  rcases hcall with rfl | rfl <;> rfl

theorem read_zero_notMem (hcs : ∀ c ∈ cs, c ≠ []) : Event.read 0 ∉ cs.map fun c => .read c.length := by
  intro h
  obtain ⟨c, hc, hread⟩ := List.mem_map.1 h
  exact hcs c hc (List.length_eq_zero_iff.1 (Event.read.inj hread))

namespace Ending.Of

theorem given_prefix (h : Ending.Of failure? n rest x) : x.calls.flatMap Sink.Call.given <+: rest.flatten := by
  cases h with
  | finished => exact List.nil_prefix
  | closeFails => exact List.nil_prefix
  | readFails => exact List.nil_prefix
  | writeFails c rest => exact ⟨rest.flatten, by simp [Sink.Call.given]⟩
  | flushFails c rest => exact ⟨rest.flatten, by simp [Sink.Call.given]⟩

theorem taken_eq (h : Ending.Of failure? n rest x) : ∃ k, x.taken = rest.flatten.take k := by
  cases h with
  | finished => exact ⟨0, rfl⟩
  | closeFails => exact ⟨0, rfl⟩
  | readFails => exact ⟨0, rfl⟩
  | writeFails c rest e k =>
    -- no more than the chunk itself was taken
    refine ⟨min k c.length, ?_⟩
    rw [List.flatten_cons, List.take_append_of_le_length (Nat.min_le_right k c.length)]
    exact List.take_eq_take_min
  | flushFails c rest => exact ⟨c.length, by simp⟩

theorem result_eq_ok_iff (h : Ending.Of failure? n rest x) :
    x.result = .ok m ↔ m = n ∧ x.read = .read 0 ∧ ∀ c ∈ x.calls, c.fault? = none := by
  cases h with
  | finished =>
    simp only [Except.ok.injEq, List.mem_singleton, forall_eq, true_and]
    exact ⟨fun h => ⟨h.symm, rfl⟩, fun h => h.1.symm⟩
  | closeFails e => simp [Sink.Call.fault?]
  | readFails e => simp
  | writeFails c rest e k => simp [Sink.Call.fault?]
  | flushFails c rest e => simp [Sink.Call.fault?]

theorem of_ok (h : Ending.Of failure? n rest x) (hok : x.result = .ok m) :
    rest = [] ∧ x.calls = [.close none] ∧ x.taken = [] := by
  cases h with
  | finished => exact ⟨rfl, rfl, rfl⟩
  | closeFails => cases hok
  | readFails => cases hok
  | writeFails => cases hok
  | flushFails => cases hok

end Ending.Of

end Endings

namespace Forwarding

variable {σ : Type} {w : Writer σ} {f g h : Forwarding (σ × List Sink.Call)} {c : List UInt8}
  {cs passed : List (List UInt8)} {x : Ending}

/-- Between two points of a forwarding chunks were delivered. -/
structure Passes (w : Writer σ) (f g : Forwarding (σ × List Sink.Call)) (passed : List (List UInt8)) : Prop where
  calls : g.sink.2 = f.sink.2 ++ passed.flatMap Sink.Call.delivery
  reads : g.reads = f.reads ++ passed.map fun c => .read c.length
  taken : w.taken g.sink.1 = w.taken f.sink.1 ++ passed.flatten
  watch : g.watch = f.watch.map (·.feedAll passed)
  total : g.total = f.total + passed.flatten.length
  goesOn : g.result? = none

/-- The forwarding ends. -/
structure Closes (w : Writer σ) (f g : Forwarding (σ × List Sink.Call)) (x : Ending) : Prop where
  calls : g.sink.2 = f.sink.2 ++ x.calls
  reads : g.reads = f.reads ++ [x.read]
  taken : w.taken g.sink.1 = w.taken f.sink.1 ++ x.taken
  watch : g.watch = f.watch
  result : g.result? = some x.result

theorem passes_nil (hf : f.result? = none) : Passes w f f [] := by
  constructor
  · simp
  · simp
  · simp
  · cases f.watch <;> rfl
  · simp
  · exact hf

theorem Passes.cons (hc : Passes w f g [c]) (hcs : Passes w g h cs) : Passes w f h (c :: cs) := by
  constructor
  · rw [hcs.calls, hc.calls, List.append_assoc, ← List.flatMap_append]
    rfl
  · rw [hcs.reads, hc.reads, List.append_assoc, ← List.map_append]
    rfl
  · rw [hcs.taken, hc.taken, List.append_assoc, ← List.flatten_append]
    rfl
  · rw [hcs.watch, hc.watch, Option.map_map]
    rfl
  · rw [hcs.total, hc.total, Nat.add_assoc, ← List.length_append, ← List.flatten_append]
    rfl
  · exact hcs.goesOn

private theorem filter_watchEvents (watch : Option LineWatch) : (watchEvents watch).filter Event.isRead = [] := by
  cases watch <;> rfl

/-! ### One read -/

theorem step_chunk (w : Writer σ) (hf : f.result? = none) (hc : c ≠ []) (failure? : Option Fault) (n : Nat)
    (rest : List (List UInt8)) : Passes w f (f.step w.recorded (.bytes c)) [c] ∨
      ∃ x, Ending.Of failure? n (c :: rest) x ∧ Closes w f (f.step w.recorded (.bytes c)) x := by
  obtain ⟨b, bs, rfl⟩ := List.exists_cons_of_ne_nil hc
  have hstep : f.step w.recorded (.bytes (b :: bs)) = f.pass w.recorded (b :: bs) := by
    rw [step, hf]
  rw [hstep]
  -- from here on it does not matter that the chunk is not empty
  generalize b :: bs = c
  cases hwrite : (w.writeAll c f.sink.1).fault? with
  | some e =>
    right
    obtain ⟨k, hk⟩ := w.taken_writeAll c f.sink.1
    refine ⟨_, .writeFails c rest e k, ?_⟩
    have hpass : f.pass w.recorded c = f.failed ((w.writeAll c f.sink.1).sink, f.sink.2 ++ [.write c (some e)])
        [.read c.length] e := by
      simp only [pass, Sink.recorded, hwrite]
    rw [hpass]
    exact ⟨rfl, List.filter_append .., hk, rfl, rfl⟩
  | none =>
    have hw := w.taken_of_written c f.sink.1 hwrite
    cases hflush : (w.flush (w.writeAll c f.sink.1).sink).fault? with
    | some e =>
      right
      refine ⟨_, .flushFails c rest e, ?_⟩
      have hpass : f.pass w.recorded c = f.failed ((w.flush (w.writeAll c f.sink.1).sink).sink,
          f.sink.2 ++ [.write c none] ++ [.flush (some e)]) [.read c.length] e := by
        simp only [pass, Sink.recorded, hwrite, hflush, List.append_nil]
      rw [hpass]
      exact ⟨List.append_assoc .., List.filter_append .., (w.taken_flush _).trans hw, rfl, rfl⟩
    | none =>
      left
      have hpass : f.pass w.recorded c = { f with
          sink := ((w.flush (w.writeAll c f.sink.1).sink).sink, f.sink.2 ++ [.write c none] ++ [.flush none])
          watch := f.watch.map (·.feed c)
          events := f.events ++ [.read c.length] ++ watchEvents (f.watch.map (·.feed c))
          total := f.total + c.length } := by
        simp only [pass, Sink.recorded, hwrite, hflush, List.append_nil]
      rw [hpass]
      constructor
      · simp [Sink.Call.delivery]
      · rw [reads, List.filter_append, List.filter_append, filter_watchEvents, List.append_nil]
        rfl
      · rw [List.flatten_singleton]
        exact (w.taken_flush _).trans hw
      · rfl
      · rw [List.flatten_singleton]
      · exact hf

theorem foldl_step_end (w : Writer σ) (hf : f.result? = none) (failure? : Option Fault) :
    ∃ x, Ending.Of failure? f.total [] x ∧
      Closes w f (((failure?.map Read.failed).toList ++ [Read.bytes []]).foldl (step w.recorded) f) x := by
  cases failure? with
  | some e =>
    refine ⟨_, .readFails e rfl, ?_⟩
    have hend : ((Option.map Read.failed (some e)).toList ++ [Read.bytes []]).foldl (step w.recorded) f =
        f.failed f.sink [.readFailed] e := by
      simp [step, hf, failed]
    rw [hend]
    exact ⟨(List.append_nil _).symm, List.filter_append .., (List.append_nil _).symm, rfl, rfl⟩
  | none =>
    have hstep : ((Option.map Read.failed none).toList ++ [Read.bytes []]).foldl (step w.recorded) f =
        f.finish w.recorded := by
      simp [step, hf]
    rw [hstep]
    cases hclose : (w.close f.sink.1).fault? with
    | none =>
      refine ⟨_, .finished rfl, ?_⟩
      have hend : f.finish w.recorded = { f with
          sink := ((w.close f.sink.1).sink, f.sink.2 ++ [.close none])
          events := f.events ++ [.read 0]
          result? := some (.ok f.total) } := by
        simp only [finish, Sink.recorded, hclose]
      rw [hend]
      exact ⟨rfl, List.filter_append .., (w.taken_close _).trans (List.append_nil _).symm, rfl, rfl⟩
    | some e =>
      refine ⟨_, .closeFails e rfl, ?_⟩
      have hend : f.finish w.recorded = f.failed ((w.close f.sink.1).sink, f.sink.2 ++ [.close (some e)])
          [.read 0] e := by
        simp only [finish, Sink.recorded, hclose]
      rw [hend]
      exact ⟨rfl, List.filter_append .., (w.taken_close _).trans (List.append_nil _).symm, rfl, rfl⟩

/-! ### All reads -/

theorem Closes.isOver (h : Closes w f g x) : g.isOver = true := by
  rw [Forwarding.isOver, h.result]
  rfl

/-- Chunks are delivered from the first on, until the forwarding ends. -/
theorem foldl_step_source (w : Writer σ) (hf : f.result? = none) (failure? : Option Fault)
    (hcs : ∀ c ∈ cs, c ≠ []) :
    let g := (cs.map Read.bytes ++ ((failure?.map Read.failed).toList ++ [Read.bytes []])).foldl (step w.recorded) f
    ∃ passed rest h x, cs = passed ++ rest ∧ Passes w f h passed ∧ Ending.Of failure? h.total rest x ∧
      Closes w h g x := by
  induction cs generalizing f with
  | nil =>
    obtain ⟨x, hx, hcloses⟩ := foldl_step_end w hf failure?
    exact ⟨[], [], f, x, rfl, passes_nil hf, hx, hcloses⟩
  | cons c cs ih =>
    rw [List.map_cons, List.cons_append, List.foldl_cons]
    rcases step_chunk w hf (hcs c List.mem_cons_self) failure? f.total cs with hpasses | ⟨x, hx, hcloses⟩
    · obtain ⟨passed, rest, h, x, hsplit, hmore, hx, hcloses⟩ :=
        ih hpasses.goesOn fun c hc => hcs c (List.mem_cons_of_mem _ hc)
      exact ⟨c :: passed, rest, h, x, congrArg _ hsplit, hpasses.cons hmore, hx, hcloses⟩
    · -- what is left is not read any more
      rw [foldl_step_of_isOver hcloses.isOver]
      exact ⟨[], c :: cs, f, x, rfl, passes_nil hf, hx, hcloses⟩

/-! ### The number of bytes -/

theorem total_step_le (s : Sink σ) (f : Forwarding σ) (r : Read) : (f.step s r).total ≤ f.total + r.given.length := by
  unfold step
  split
  · exact Nat.le_add_right ..
  · split
    · exact Nat.le_refl _
    · unfold finish
      dsimp only
      split <;> exact Nat.le_refl _
    · unfold pass
      dsimp only
      split
      · exact Nat.le_add_right ..
      · split
        · exact Nat.le_add_right ..
        · exact Nat.le_refl _

/-- No more bytes are counted than were read. -/
theorem total_foldl_step_le (s : Sink σ) (f : Forwarding σ) (rs : List Read) :
    (rs.foldl (step s) f).total ≤ f.total + (rs.flatMap Read.given).length := by
  induction rs generalizing f with
  | nil => exact Nat.le_refl _
  | cons r rs ih =>
    have hstep := total_step_le s f r
    calc (rs.foldl (step s) (f.step s r)).total
        ≤ (f.step s r).total + (rs.flatMap Read.given).length := ih _
      _ ≤ f.total + ((r :: rs).flatMap Read.given).length := by
        rw [List.flatMap_cons, List.length_append]
        omega

/-- If a stream is shorter than 64 bits can count, the number of its bytes that went through stays a number of 64 bits
at every point of a forwarding. -/
theorem total_lt_wordCount (s : Sink σ) (a : σ) (watch : Option LineWatch) {r : Source}
    (hr : r.stream.length < wordCount 64) {rs : List Read} (hrs : rs <+: r.reads ++ [.bytes []]) :
    (rs.foldl (step s) { sink := a, watch }).total < wordCount 64 := by
  obtain ⟨later, hlater⟩ := hrs
  calc (rs.foldl (step s) { sink := a, watch }).total
      ≤ 0 + (rs.flatMap Read.given).length := total_foldl_step_le s { sink := a, watch } rs
    _ ≤ ((rs ++ later).flatMap Read.given).length := by simp
    _ = r.stream.length := by rw [hlater, r.given_reads]
    _ < wordCount 64 := hr

/-! ### What changes nothing -/

variable {τ : Type}

/-- The operations of one sink are those of another, seen through `view`. -/
structure Views (t : Sink τ) (s : Sink σ) (view : τ → σ) : Prop where
  writeAll : ∀ bs a, view (t.writeAll bs a).sink = (s.writeAll bs (view a)).sink ∧
    (t.writeAll bs a).fault? = (s.writeAll bs (view a)).fault?
  flush : ∀ a, view (t.flush a).sink = (s.flush (view a)).sink ∧ (t.flush a).fault? = (s.flush (view a)).fault?
  close : ∀ a, view (t.close a).sink = (s.close (view a)).sink ∧ (t.close a).fault? = (s.close (view a)).fault?

/-- Two forwardings have come equally far: their watches, `v` and `v'` at first, were fed the same chunks. -/
structure Agrees (view : τ → σ) (v v' : Option LineWatch) (f : Forwarding τ) (g : Forwarding σ) : Prop where
  sink : view f.sink = g.sink
  total : f.total = g.total
  result : f.result? = g.result?
  fed : ∃ cs : List (List UInt8), f.watch = v.map (·.feedAll cs) ∧ g.watch = v'.map (·.feedAll cs)

section Agrees

variable {t : Sink τ} {s : Sink σ} {view : τ → σ} {v v' : Option LineWatch} {f : Forwarding τ} {g : Forwarding σ}

private theorem feed_feedAll (v : Option LineWatch) (cs : List (List UInt8)) (c : List UInt8) :
    (v.map (·.feedAll cs)).map (·.feed c) = v.map (·.feedAll (cs ++ [c])) := by
  cases v with
  | none => rfl
  | some v => simp [LineWatch.feedAll]

theorem Agrees.finish (hview : Views t s view) (h : Agrees view v v' f g) :
    Agrees view v v' (f.finish t) (g.finish s) := by
  obtain ⟨hsink, hfault⟩ := hview.close f.sink
  rw [h.sink] at hsink hfault
  unfold Forwarding.finish
  dsimp only
  rw [← hfault]
  cases (t.close f.sink).fault? with
  | none => exact ⟨hsink, h.total, by rw [h.total], h.fed⟩
  | some e => exact ⟨hsink, h.total, rfl, h.fed⟩

theorem Agrees.pass (hview : Views t s view) (h : Agrees view v v' f g) (c : List UInt8) :
    Agrees view v v' (f.pass t c) (g.pass s c) := by
  obtain ⟨hwritten, hwrite⟩ := hview.writeAll c f.sink
  rw [h.sink] at hwritten hwrite
  unfold Forwarding.pass
  dsimp only
  rw [← hwrite]
  cases (t.writeAll c f.sink).fault? with
  | some e => exact ⟨hwritten, h.total, rfl, h.fed⟩
  | none =>
    obtain ⟨hflushed, hflush⟩ := hview.flush (t.writeAll c f.sink).sink
    rw [hwritten] at hflushed hflush
    dsimp only
    rw [← hflush]
    cases (t.flush (t.writeAll c f.sink).sink).fault? with
    | some e => exact ⟨hflushed, h.total, rfl, h.fed⟩
    | none =>
      obtain ⟨cs, hf, hg⟩ := h.fed
      refine ⟨hflushed, congrArg (· + c.length) h.total, h.result, cs ++ [c], ?_, ?_⟩
      · rw [← feed_feedAll, ← hf]
      · rw [← feed_feedAll, ← hg]

theorem Agrees.step (hview : Views t s view) (h : Agrees view v v' f g) (r : Read) :
    Agrees view v v' (f.step t r) (g.step s r) := by
  unfold Forwarding.step
  rw [← h.result]
  cases f.result? with
  | some result => exact h
  | none =>
    cases r with
    | failed e => exact ⟨h.sink, h.total, rfl, h.fed⟩
    | bytes c =>
      cases c with
      | nil => exact h.finish hview
      | cons b bs => exact h.pass hview (b :: bs)

theorem Agrees.foldl_step (hview : Views t s view) (h : Agrees view v v' f g) (rs : List Read) :
    Agrees view v v' (rs.foldl (Forwarding.step t) f) (rs.foldl (Forwarding.step s) g) := by
  induction rs generalizing f g with
  | nil => exact h
  | cons r rs ih => exact ih (h.step hview r)

end Agrees

end Forwarding

section Forward

open Forwarding

variable {σ : Type}

/-- To note the calls changes nothing else, and neither does another watch. -/
theorem forward_recorded (s : Sink σ) (rs : List Read) (a : σ) (v v' : Option LineWatch) :
    Agrees Prod.fst v v' (forward s.recorded rs (a, []) v) (forward s rs a v') := by
  have hview : Views s.recorded s Prod.fst :=
    ⟨fun _ _ => ⟨rfl, rfl⟩, fun _ => ⟨rfl, rfl⟩, fun _ => ⟨rfl, rfl⟩⟩
  apply Agrees.foldl_step hview
  exact ⟨rfl, rfl, rfl, [], by cases v <;> rfl, by cases v' <;> rfl⟩

/-- A watch has no part in a forwarding. -/
theorem forward_unwatched (s : Sink σ) (rs : List Read) (a : σ) (v : Option LineWatch) :
    (forward s rs a v).sink = (forward s rs a none).sink ∧
      (forward s rs a v).result? = (forward s rs a none).result? := by
  have hview : Views s s id := ⟨fun _ _ => ⟨rfl, rfl⟩, fun _ => ⟨rfl, rfl⟩, fun _ => ⟨rfl, rfl⟩⟩
  have hstart : Agrees id v none ({ sink := a, watch := v } : Forwarding σ) { sink := a, watch := none } :=
    ⟨rfl, rfl, rfl, [], by cases v <;> rfl, rfl⟩
  have hend := hstart.foldl_step hview (rs ++ [Read.bytes []])
  exact ⟨hend.sink, hend.result⟩

end Forward

/-! ### The sinks of the launcher -/

/-- What is written to a bounded sink is taken from its beginning, as far as the write gets. -/
theorem BoundedSink.received_writeAll (bs : List UInt8) (b : BoundedSink) :
    (∃ n, (b.writeAll bs).sink.received = b.received ++ bs.take n) ∧
      ((b.writeAll bs).fault? = none → (b.writeAll bs).sink.received = b.received ++ bs) := by
  fun_induction writeAll bs b with
  | case1 bs b hempty =>
    obtain rfl := List.length_eq_zero_iff.1 hempty
    exact ⟨⟨0, (List.append_nil _).symm⟩, fun _ => (List.append_nil _).symm⟩
  | case2 bs b hempty fault hfault hfull =>
    exact ⟨⟨0, (List.append_nil _).symm⟩, fun h => absurd h (Option.some_ne_none _)⟩
  | case3 bs b hempty n hnone hopen =>
    exact ⟨⟨0, (List.append_nil _).symm⟩, fun h => absurd h (Option.some_ne_none _)⟩
  | case4 bs b hempty n hsome rest hopen ih =>
    obtain ⟨⟨k, hk⟩, hall⟩ := ih
    constructor
    · refine ⟨n + k, ?_⟩
      rw [hk, List.take_add, List.append_assoc]
    · intro hwritten
      rw [hall hwritten, List.append_assoc, List.take_append_drop]

def BoundedSink.writer : Writer BoundedSink where
  toSink := operations
  taken := received
  taken_writeAll bs b := (received_writeAll bs b).1
  taken_of_written bs b := (received_writeAll bs b).2
  taken_flush b := by
    show (b.flush).sink.received = b.received
    unfold flush
    dsimp only
    split <;> rfl
  taken_close b := by
    show (b.close).sink.received = b.received
    unfold close
    split <;> rfl

def Capture.writer : Writer Capture where
  toSink := operations
  taken := unread
  taken_writeAll bs c := by
    show ∃ n, (c.writeAll bs).sink.unread = c.unread ++ bs.take n
    unfold writeAll
    split
    · exact ⟨bs.length, by rw [List.take_length]⟩
    · exact ⟨0, by rw [List.take_zero, List.append_nil]⟩
  taken_of_written bs c := by
    show (c.writeAll bs).fault? = none → (c.writeAll bs).sink.unread = c.unread ++ bs
    unfold writeAll
    split
    · exact fun _ => rfl
    · exact fun h => absurd h (Option.some_ne_none _)
  taken_flush c := rfl
  taken_close c := rfl

/-! ### The whole forwarding -/

/-- Any source is forwarded to any writer, whatever is watched.  Some chunks are delivered, each by a write and a flush
that succeed; then the forwarding ends, by the end of the stream or by the first failure, which it returns and after
which it neither reads nor calls the writer.  The watch has got the chunks that were delivered.  The writer is given
the stream from its beginning and has taken a first part of it.  The forwarding succeeds exactly if it reaches the end
of the stream and no call fails; then its number is the length of the stream, all of which the writer has taken, flushed
after every chunk and closed once.  To note the calls changes nothing, and the calls and the result are the same without
the watch. -/
theorem forward_exact {σ : Type} (w : Writer σ) (r : Source) (a : σ) (watch : Option LineWatch) :
    let f := forward w.recorded r.reads (a, []) watch
    let calls := f.sink.2
    let run := forward w.toSink r.reads a watch
    let unwatched := forward w.recorded r.reads (a, []) none
    ∃ passed rest x, r.chunks = passed ++ rest ∧ Ending.Of r.failure? passed.flatten.length rest x ∧
      calls = passed.flatMap Sink.Call.delivery ++ x.calls ∧
      f.reads = (passed.map fun c => .read c.length) ++ [x.read] ∧
      f.watch = watch.map (·.feedAll passed) ∧ f.result? = some x.result ∧
      calls.flatMap Sink.Call.given <+: r.stream ∧ (∃ k, w.taken f.sink.1 = w.taken a ++ r.stream.take k) ∧
      (∀ n, f.result? = some (.ok n) ↔ n = r.stream.length ∧ .read 0 ∈ f.reads ∧ ∀ c ∈ calls, c.fault? = none) ∧
      (∀ n, f.result? = some (.ok n) →
        calls = r.chunks.flatMap Sink.Call.delivery ++ [.close none] ∧ w.taken f.sink.1 = w.taken a ++ r.stream) ∧
      (run.sink = f.sink.1 ∧ run.result? = f.result? ∧ run.watch = f.watch) ∧
      unwatched.sink = f.sink ∧ unwatched.result? = f.result? := by
  intro f calls run unwatched
  obtain ⟨passed, rest, g, x, hsplit, hpasses, hx, hcloses⟩ :=
    Forwarding.foldl_step_source (f := { sink := (a, []), watch }) w rfl r.failure? r.ne_nil
  have hf : (r.chunks.map Read.bytes ++ ((r.failure?.map Read.failed).toList ++ [Read.bytes []])).foldl
      (Forwarding.step w.recorded) { sink := (a, []), watch } = f := by
    rw [← List.append_assoc]
    rfl
  rw [hf] at hcloses
  have hstream : r.stream = passed.flatten ++ rest.flatten := by
    rw [Source.stream, hsplit, List.flatten_append]
  have hnonempty : ∀ c ∈ passed, c ≠ [] := fun c hc => r.ne_nil c (hsplit ▸ List.mem_append_left _ hc)
  have htotal : g.total = passed.flatten.length := by rw [hpasses.total, Nat.zero_add]
  have hcalls : calls = passed.flatMap Sink.Call.delivery ++ x.calls := by
    show f.sink.2 = _
    rw [hcloses.calls, hpasses.calls, List.nil_append]
  have hreads : f.reads = (passed.map fun c => .read c.length) ++ [x.read] := by
    rw [hcloses.reads, hpasses.reads]
    rfl
  have htaken : w.taken f.sink.1 = w.taken a ++ (passed.flatten ++ x.taken) := by
    rw [hcloses.taken, hpasses.taken, List.append_assoc]
  rw [htotal] at hx
  refine ⟨passed, rest, x, hsplit, hx, hcalls, hreads, hcloses.watch.trans hpasses.watch, hcloses.result,
    ?_, ?_, ?_, ?_, ?_, ?_⟩
  · rw [hcalls, List.flatMap_append, given_deliveries, hstream]
    exact (List.prefix_append_right_inj _).2 hx.given_prefix
  · obtain ⟨k, hk⟩ := hx.taken_eq
    refine ⟨passed.flatten.length + k, ?_⟩
    rw [htaken, hk, hstream, List.take_length_add_append]
  · intro n
    constructor
    · intro hok
      have hresult : x.result = .ok n := Option.some.inj (hcloses.result.symm.trans hok)
      obtain ⟨hn, hread, hfaults⟩ := hx.result_eq_ok_iff.1 hresult
      obtain ⟨hrest, -, -⟩ := hx.of_ok hresult
      refine ⟨?_, ?_, ?_⟩
      · rw [hn, hstream, hrest, List.flatten_nil, List.append_nil]
      · rw [hreads, hread]
        exact List.mem_append_right _ List.mem_cons_self
      · intro call hcall
        rw [hcalls] at hcall
        exact (List.mem_append.1 hcall).elim fault?_of_mem_deliveries (hfaults call)
    · rintro ⟨hn, hread, hfaults⟩
      -- the chunks that were delivered are not empty, so it is the last read that found the end
      have hlast : x.read = .read 0 := by
        rw [hreads] at hread
        rcases List.mem_append.1 hread with hmem | hmem
        · exact absurd hmem (read_zero_notMem hnonempty)
        · exact (List.mem_singleton.1 hmem).symm
      have hresult : x.result = .ok passed.flatten.length :=
        hx.result_eq_ok_iff.2 ⟨rfl, hlast, fun call hcall => hfaults call (hcalls ▸ List.mem_append_right _ hcall)⟩
      obtain ⟨hrest, -, -⟩ := hx.of_ok hresult
      have hlength : n = passed.flatten.length := by
        rw [hn, hstream, hrest, List.flatten_nil, List.append_nil]
      rw [hlength, ← hresult]
      exact hcloses.result
  · intro n hok
    have hresult : x.result = .ok n := Option.some.inj (hcloses.result.symm.trans hok)
    obtain ⟨hrest, hclose, hnone⟩ := hx.of_ok hresult
    rw [hcalls, htaken, hstream, hclose, hnone, hrest, hsplit, hrest]
    simp
  · have hsame := forward_recorded w.toSink r.reads a watch watch
    obtain ⟨cs, hrecorded, hrun⟩ := hsame.fed
    exact ⟨hsame.sink.symm, hsame.result.symm, hrun.trans hrecorded.symm⟩
  · obtain ⟨hsink, hresult⟩ := forward_unwatched w.recorded r.reads (a, []) watch
    exact ⟨hsink.symm, hresult.symm⟩

end AppLauncher.Output
