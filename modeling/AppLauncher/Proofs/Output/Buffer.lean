import AppLauncher.Proofs.Output.LineWatch

/-!
# The buffer of a watch

After any chunks the buffer of a watch holds exactly those bytes of the unfinished line that can still begin a match,
and nothing once the pattern was seen.  While a chunk is taken in, the buffer first grows by a whole piece of a line and
is cut back only then; `course` has every state that the watch goes through, up to the one that `feed` ends with
(`getLast?_course`).  Each of them holds no more than what was kept and one piece (`Watches.exists_piece`).  So long
lines do not pile up, neither between the chunks nor within one (`pending_feedAll_exact`).
-/

namespace AppLauncher.Output

theorem length_lastBytes (n : Nat) (t : List UInt8) : (lastBytes n t).length = min t.length n := by
  rw [lastBytes, List.length_drop]
  omega

namespace LineWatch

variable {w v : LineWatch} {segment : List UInt8}

/-! ### The states in the course of a feed -/

/-- The states of a watch that takes in a segment, one for each change: the segment is in the buffer, the buffer was
searched, and then the line has ended with a match or without one, or it goes on. -/
def stages (w : LineWatch) (segment : List UInt8) : List LineWatch :=
  let filled := { w with pending := w.pending ++ segment }
  let searched := { filled with lineMatched := w.lineMatched || occursIn w.pattern filled.pending }
  let raised := { searched with seen := true }
  [filled, searched] ++
    if segment.getLast? = some newline then
      if searched.lineMatched then [raised, { raised with pending := [] }] else [{ searched with pending := [] }]
    else [{ searched with pending := lastBytes w.keep searched.pending }]

/-- The states of a watch that takes in segments until it has seen its line. -/
def stagesAll (w : LineWatch) : List (List UInt8) → List LineWatch
  | [] => []
  | segment :: rest => if w.seen then [] else w.stages segment ++ (w.feedSegment segment).stagesAll rest

/-- The states of a watch that takes in a chunk. -/
def course (w : LineWatch) (chunk : List UInt8) : List LineWatch := w.stagesAll (segments chunk)

theorem getLast?_stages (h : w.seen = false) (segment : List UInt8) :
    (w.stages segment).getLast? = some (w.feedSegment segment) := by
  unfold stages feedSegment
  by_cases hend : segment.getLast? = some newline
  · cases hmatch : (w.lineMatched || occursIn w.pattern (w.pending ++ segment)) <;> simp [h, hend, hmatch]
  · simp [h, hend, lastBytes]

theorem feedSegment_of_seen (h : w.seen = true) (segment : List UInt8) : w.feedSegment segment = w := by
  simp [feedSegment, h]

theorem foldl_feedSegment_of_seen (h : w.seen = true) (segs : List (List UInt8)) :
    segs.foldl feedSegment w = w := by
  induction segs with
  | nil => rfl
  | cons segment rest ih => rw [List.foldl_cons, feedSegment_of_seen h, ih]

theorem getLast?_stagesAll (w : LineWatch) (segs : List (List UInt8)) :
    (w :: w.stagesAll segs).getLast? = some (segs.foldl feedSegment w) := by
  induction segs generalizing w with
  | nil => rfl
  | cons segment rest ih =>
    cases hw : w.seen with
    | true => simp [stagesAll, hw, foldl_feedSegment_of_seen hw]
    | false =>
      obtain ⟨before, hstages⟩ := List.getLast?_eq_some_iff.1 (getLast?_stages hw segment)
      have e : w :: w.stagesAll (segment :: rest) =
          (w :: before) ++ w.feedSegment segment :: (w.feedSegment segment).stagesAll rest := by
        simp [stagesAll, hw, hstages]
      rw [e, List.getLast?_append, ih, List.foldl_cons, Option.some_or]

/-- The course of a feed ends with the watch after it. -/
theorem getLast?_course (w : LineWatch) (chunk : List UInt8) :
    (w :: w.course chunk).getLast? = some (w.feed chunk) := by
  rw [course, getLast?_stagesAll]
  cases hw : w.seen with
  | true => simp [feed, hw, foldl_feedSegment_of_seen hw]
  | false => simp [feed, hw]

/-- The buffer is fullest when the segment has just been put into it. -/
theorem length_pending_of_mem_stages (h : v ∈ w.stages segment) :
    v.pending.length ≤ w.pending.length + segment.length := by
  unfold stages at h
  simp only [List.mem_append, List.mem_cons, List.not_mem_nil, or_false] at h
  rcases h with (rfl | rfl) | h
  · simp
  · simp
  · split at h
    · split at h
      · simp only [List.mem_cons, List.not_mem_nil, or_false] at h
        rcases h with rfl | rfl <;> simp
      · rw [List.mem_singleton.1 h]
        simp
    · rw [List.mem_singleton.1 h, length_lastBytes, List.length_append]
      exact Nat.min_le_left ..

/-- Nothing changes a watch that has seen its line. -/
theorem feedAll_of_seen (h : w.seen = true) (chunks : List (List UInt8)) : w.feedAll chunks = w := by
  induction chunks with
  | nil => rfl
  | cons chunk rest ih =>
    have e : w.feed chunk = w := by simp [feed, h]
    rw [feedAll, List.foldl_cons, e]
    exact ih

end LineWatch

/-! ### How much is in the buffer -/

namespace Watches

variable {p s : List UInt8} {w v : LineWatch}

/-- Between two pieces of lines the buffer holds no more bytes than can still begin a match. -/
theorem length_pending_le (h : Watches p s w) : w.pending.length ≤ p.length - 1 := by
  cases hw : w.seen with
  | true => simp [h.pending_of_seen hw]
  | false =>
    rw [h.pending_eq hw, length_lastBytes]
    exact Nat.min_le_right ..

/-- Whatever pieces a watch takes in, on the way it never holds more than it may keep and one of them. -/
theorem exists_piece (h : Watches p s w) {segs : List (List UInt8)} (hsegs : ∀ seg ∈ segs, IsPiece seg)
    (hv : v ∈ w.stagesAll segs) : ∃ seg ∈ segs, v.pending.length ≤ p.length - 1 + seg.length := by
  induction segs generalizing s w with
  | nil => simp [LineWatch.stagesAll] at hv
  | cons seg rest ih =>
    unfold LineWatch.stagesAll at hv
    split at hv
    · simp at hv
    · rcases List.mem_append.1 hv with hv | hv
      · refine ⟨seg, List.mem_cons_self, ?_⟩
        calc v.pending.length
          _ ≤ w.pending.length + seg.length := LineWatch.length_pending_of_mem_stages hv
          _ ≤ p.length - 1 + seg.length := Nat.add_le_add_right h.length_pending_le _
      · -- the next piece finds a buffer that was cut back
        have hnext := h.feedSegment (hsegs seg List.mem_cons_self)
        obtain ⟨x, hx, hle⟩ := ih hnext (fun x hx => hsegs x (List.mem_cons_of_mem _ hx)) hv
        exact ⟨x, List.mem_cons_of_mem _ hx, hle⟩

theorem length_pending_of_mem_course (h : Watches p s w) {chunk : List UInt8} (hv : v ∈ w.course chunk) :
    v.pending.length ≤ p.length - 1 + chunk.length := by
  obtain ⟨seg, hseg, hle⟩ := h.exists_piece (fun _ => isPiece_of_mem_segments) hv
  have hlength : seg.length ≤ chunk.length := by
    conv => rhs; rw [← flatten_segments chunk]
    exact (List.sublist_flatten_of_mem hseg).length_le
  omega

end Watches

/-- After any chunks, with `t` the bytes after the last newline: a watch that has not seen its pattern keeps exactly the
last `p.length - 1` bytes of `t`, or all of `t` if it is shorter, and its flag says whether `t` holds the pattern
already; one that has seen it keeps nothing and never changes again.  So it keeps at most `p.length - 1` bytes, and
while it takes in another chunk it never holds more than that and the length of the chunk. -/
theorem pending_feedAll_exact (p : List UInt8) (chunks : List (List UInt8)) :
    let w : LineWatch := (LineWatch.new p).feedAll chunks
    let t := unfinished chunks.flatten
    (w.seen = false →
      (w.pending <:+ t ∧ w.pending.length = min t.length (p.length - 1)) ∧
        (w.lineMatched = true ↔ t ≠ [] ∧ p <:+: t)) ∧
    (w.seen = true → w.pending = [] ∧ ∀ more, w.feedAll more = w) ∧
    w.pending.length ≤ p.length - 1 ∧
    ∀ chunk, (w :: w.course chunk).getLast? = some (w.feed chunk) ∧
      ∀ v ∈ w.course chunk, v.pending.length ≤ p.length - 1 + chunk.length := by
  intro w t
  have h : Watches p chunks.flatten w := by
    simpa using (watches_new p).feedAll chunks
  refine ⟨fun hw => ⟨?_, h.matched_iff hw⟩, fun hw => ⟨h.pending_of_seen hw, LineWatch.feedAll_of_seen hw⟩,
    h.length_pending_le, fun chunk => ⟨w.getLast?_course chunk, fun v => h.length_pending_of_mem_course⟩⟩
  rw [h.pending_eq hw]
  exact ⟨List.drop_suffix .., length_lastBytes ..⟩

/-- The pattern `ab`, at the beginning of a line that goes on, and in a line that is cut and ends within a chunk.  The
first watch has kept one byte, and a chunk of two makes three bytes in its buffer, which is all that there can be. -/
theorem pending_feedAll_exact_two_lines :
    let w := (LineWatch.new [97, 98]).feedAll [[10, 97, 98], [120, 121]]
    let ended := (LineWatch.new [97, 98]).feedAll [[120, 97], [98, 10, 97]]
    let filled : LineWatch := ⟨[97, 98], [121, 122, 10], true, false⟩
    (w.seen = false ∧ (w.pending <:+ [97, 98, 120, 121] ∧ w.pending.length = 1) ∧ w.lineMatched = true) ∧
      (ended.seen = true ∧ ended.pending = [] ∧ ∀ more, ended.feedAll more = ended) ∧
      filled ∈ w.course [122, 10] ∧ filled.pending.length ≤ 1 + 2 := by
  intro w ended filled
  have hw : w.seen = false := by decide
  have hended : ended.seen = true := by decide
  have hfilled : filled ∈ w.course [122, 10] := by decide
  have ht : unfinished [[10, 97, 98], [120, 121]].flatten = [97, 98, 120, 121] := by decide
  obtain ⟨hopen, -, -, hcourse⟩ := pending_feedAll_exact [97, 98] [[10, 97, 98], [120, 121]]
  rw [ht] at hopen
  have hseen := (pending_feedAll_exact [97, 98] [[120, 97], [98, 10, 97]]).2.1 hended
  have hlength := (hcourse [122, 10]).2 filled hfilled
  exact ⟨⟨hw, (hopen hw).1, (hopen hw).2.2 (by decide)⟩, ⟨hended, hseen⟩, hfilled, hlength⟩

end AppLauncher.Output
