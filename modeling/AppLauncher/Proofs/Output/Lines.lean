import AppLauncher.Output.LineWatch
import Mathlib.Data.List.DropRight

/-!
# Lines of a stream of bytes

What a line that has ended is, and what is left of a stream after its last newline (`unfinished`).  Appending bytes
without a newline makes no line (`lineAt_append_open`), and appending the rest of a line makes exactly one
(`lineAt_append_end`).  `segments` cuts bytes into pieces with a newline at most at their end.
-/

namespace AppLauncher.Output

/-- A line that has ended stands in `s` after `before`: it begins at the start of `s` or after a newline, and its
only newline is its last byte. -/
structure LineAt (s before line : List UInt8) : Prop where
  isPrefix : before ++ line <+: s
  starts : before = [] ∨ before.getLast? = some newline
  ends : ∃ body, newline ∉ body ∧ line = body ++ [newline]

/-- The bytes after the last newline. -/
def unfinished (s : List UInt8) : List UInt8 := s.rtakeWhile (· != newline)

/-- The bytes up to the last newline. -/
def finished (s : List UInt8) : List UInt8 := s.rdropWhile (· != newline)

theorem finished_append_unfinished (s : List UInt8) : finished s ++ unfinished s = s :=
  List.rdropWhile_append_rtakeWhile ..

theorem newline_notMem_unfinished (s : List UInt8) : newline ∉ unfinished s := by
  intro h
  have := List.mem_rtakeWhile_imp h
  simp at this

theorem finished_starts (s : List UInt8) : finished s = [] ∨ (finished s).getLast? = some newline := by
  by_cases h : finished s = []
  · exact Or.inl h
  · right
    have hl := List.rdropWhile_last_not (· != newline) s h
    rw [List.getLast?_eq_some_getLast h]
    simp only [bne_iff_ne, ne_eq, not_not] at hl
    exact congrArg some hl

theorem unfinished_end (s : List UInt8) : unfinished (s ++ [newline]) = [] :=
  List.rtakeWhile_concat_neg _ _ _ (by simp)

theorem unfinished_append {s seg : List UInt8} (h : newline ∉ seg) :
    unfinished (s ++ seg) = unfinished s ++ seg := by
  induction seg using List.reverseRecOn with
  | nil => simp
  | append_singleton seg b ih =>
    simp only [List.mem_append, List.mem_singleton, not_or] at h
    have hb : (b != newline) = true := by simpa using Ne.symm h.2
    have e : unfinished (s ++ seg ++ [b]) = unfinished (s ++ seg) ++ [b] :=
      List.rtakeWhile_concat_pos _ _ _ hb
    rw [← List.append_assoc, e, ih h.1, List.append_assoc]

/-- What follows a place where a line may begin is unfinished if it has no newline. -/
theorem unfinished_eq {before body : List UInt8} (hs : before = [] ∨ before.getLast? = some newline)
    (hb : newline ∉ body) : unfinished (before ++ body) = body := by
  have h : unfinished before = [] := by
    rcases hs with rfl | hs
    · simp [unfinished]
    · rw [List.getLast?_eq_some_iff] at hs
      obtain ⟨ys, rfl⟩ := hs
      exact unfinished_end ys
  rw [unfinished_append hb, h, List.nil_append]

/-! ### Appending to a stream -/

theorem LineAt.mono {s t before line : List UInt8} (h : LineAt s before line) (hst : s <+: t) :
    LineAt t before line :=
  ⟨h.isPrefix.trans hst, h.starts, h.ends⟩

/-- Bytes without a newline end no line. -/
theorem lineAt_append_open {s seg before line : List UInt8} (hseg : newline ∉ seg) :
    LineAt (s ++ seg) before line ↔ LineAt s before line := by
  constructor
  · intro h
    refine ⟨?_, h.starts, h.ends⟩
    obtain ⟨body, -, rfl⟩ := h.ends
    -- the newline of the line cannot lie in `seg`
    rcases List.prefix_or_prefix_of_prefix h.isPrefix (List.prefix_append s seg) with hp | hp
    · exact hp
    · obtain ⟨r, hr⟩ := hp
      have hrs : r <+: seg := by
        have := h.isPrefix
        rw [← hr] at this
        exact (List.prefix_append_right_inj s).1 this
      rcases List.eq_nil_or_concat r with rfl | ⟨q, b, rfl⟩
      · rw [List.append_nil] at hr
        exact hr ▸ List.prefix_rfl
      · have hb : b = newline := by
          have := congrArg List.getLast? hr
          simpa using this
        exact absurd (hrs.subset (by simp [hb])) hseg
  · intro h
    exact h.mono (List.prefix_append s seg)

/-- The rest of a line ends the line that was unfinished, and no other. -/
theorem lineAt_append_end {s body before line : List UInt8} (hbody : newline ∉ body) :
    LineAt (s ++ (body ++ [newline])) before line ↔
      LineAt s before line ∨ (before = finished s ∧ line = unfinished s ++ (body ++ [newline])) := by
  constructor
  · intro h
    obtain ⟨own, hown, rfl⟩ := h.ends
    have hp : before ++ own ++ [newline] <+: (s ++ body) ++ [newline] := by
      simpa [List.append_assoc] using h.isPrefix
    rcases List.prefix_concat_iff.1 hp with hp | hp
    · -- the newline of the line is the new one, so its other bytes are what was unfinished, and more
      right
      have e : before ++ own = s ++ body := List.append_cancel_right hp
      have hu : own = unfinished s ++ body := by
        rw [← unfinished_append hbody, ← e, unfinished_eq h.starts hown]
      refine ⟨?_, by rw [hu, List.append_assoc]⟩
      have hs : before ++ own = finished s ++ own := by
        rw [e, hu, ← List.append_assoc, finished_append_unfinished]
      exact List.append_cancel_right hs
    · left
      have h' : LineAt (s ++ body) before (own ++ [newline]) :=
        ⟨by simpa [List.append_assoc] using hp, h.starts, h.ends⟩
      exact (lineAt_append_open hbody).1 h'
  · rintro (h | ⟨rfl, rfl⟩)
    · exact h.mono (List.prefix_append ..)
    · refine ⟨?_, finished_starts s, unfinished s ++ body, ?_, by simp⟩
      · exact ⟨[], by rw [List.append_nil, ← List.append_assoc, finished_append_unfinished]⟩
      · simpa using ⟨newline_notMem_unfinished s, hbody⟩

/-! ### Segments -/

theorem flatten_segments (s : List UInt8) : (segments s).flatten = s := by
  induction s with
  | nil => rfl
  | cons b rest ih =>
    unfold segments
    split
    · simp [ih]
    · split
      · rename_i h
        rw [h] at ih
        simpa using ih
      · rename_i h
        rw [h] at ih
        simpa using ih

/-- A piece of a line: not empty, and a newline only at its end. -/
def IsPiece (seg : List UInt8) : Prop := seg ≠ [] ∧ newline ∉ seg.dropLast

theorem isPiece_of_mem_segments {s seg : List UInt8} (h : seg ∈ segments s) : IsPiece seg := by
  induction s generalizing seg with
  | nil => simp [segments] at h
  | cons b rest ih =>
    unfold segments at h
    split at h
    · rcases List.mem_cons.1 h with rfl | h
      · simp [IsPiece]
      · exact ih h
    · rename_i hb
      split at h
      · rw [List.mem_singleton] at h
        subst h
        simp [IsPiece]
      · rename_i first more hr
        rcases List.mem_cons.1 h with rfl | h
        · have hfirst : IsPiece first := ih (by simp [hr])
          obtain ⟨hne, hnl⟩ := hfirst
          refine ⟨by simp, ?_⟩
          rw [List.dropLast_cons_of_ne_nil hne, List.mem_cons, not_or]
          exact ⟨Ne.symm hb, hnl⟩
        · exact ih (by simp [hr, h])

/-- A piece goes on with a line or ends it. -/
theorem IsPiece.cases {seg : List UInt8} (h : IsPiece seg) :
    newline ∉ seg ∨ ∃ body, newline ∉ body ∧ seg = body ++ [newline] := by
  obtain ⟨hne, hnl⟩ := h
  have e := List.dropLast_concat_getLast hne
  by_cases hb : seg.getLast hne = newline
  · right
    exact ⟨seg.dropLast, hnl, by rw [← hb, e]⟩
  · left
    rw [← e, List.mem_append, List.mem_singleton, not_or]
    exact ⟨hnl, Ne.symm hb⟩

end AppLauncher.Output
