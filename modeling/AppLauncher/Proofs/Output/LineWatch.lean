import AppLauncher.Proofs.Output.Lines
import Mathlib.Data.Nat.Find
import Mathlib.Order.Bounds.Basic

/-!
# What a watch sees

A watch keeps a few bytes and a flag, but it knows the whole stream: after any pieces its state says of all the bytes
so far what it should (`Watches`), however they were cut.  The step is one piece of a line (`watches_feedSegment`);
chunks and streams follow from it.  The main result is that the watch has seen its pattern exactly when a line that
has ended holds it, from the chunk on that ends the first such line (`seen_feedAll_exact`).
-/

namespace AppLauncher.Output

/-- The first `n` bytes of `s` end with a line that holds `p`. -/
def MatchEnds (p s : List UInt8) (n : Nat) : Prop :=
  ∃ before line, LineAt s before line ∧ p <:+: line ∧ n = before.length + line.length

/-- A line of `s` that has ended holds `p`. -/
def HoldsLine (p s : List UInt8) : Prop := ∃ before line, LineAt s before line ∧ p <:+: line

theorem HoldsLine.mono {p s t : List UInt8} (h : HoldsLine p s) (hst : s <+: t) : HoldsLine p t := by
  obtain ⟨before, line, hl, hp⟩ := h
  exact ⟨before, line, hl.mono hst, hp⟩

theorem holdsLine_append_open {p s seg : List UInt8} (hseg : newline ∉ seg) :
    HoldsLine p (s ++ seg) ↔ HoldsLine p s := by
  simp only [HoldsLine, lineAt_append_open hseg]

theorem holdsLine_append_end {p s body : List UInt8} (hbody : newline ∉ body) :
    HoldsLine p (s ++ (body ++ [newline])) ↔
      HoldsLine p s ∨ p <:+: unfinished s ++ (body ++ [newline]) := by
  unfold HoldsLine
  constructor
  · rintro ⟨before, line, hl, hp⟩
    rcases (lineAt_append_end hbody).1 hl with hl | ⟨-, rfl⟩
    · exact Or.inl ⟨before, line, hl, hp⟩
    · exact Or.inr hp
  · rintro (⟨before, line, hl, hp⟩ | hp)
    · exact ⟨before, line, (lineAt_append_end hbody).2 (Or.inl hl), hp⟩
    · exact ⟨_, _, (lineAt_append_end hbody).2 (Or.inr ⟨rfl, rfl⟩), hp⟩

/-- A line in the first bytes of a stream ends within them. -/
theorem holdsLine_prefix_iff {p s t : List UInt8} (hst : s <+: t) :
    HoldsLine p s ↔ ∃ n ≤ s.length, MatchEnds p t n := by
  constructor
  · rintro ⟨before, line, hl, hp⟩
    refine ⟨before.length + line.length, ?_, before, line, hl.mono hst, hp, rfl⟩
    simpa using hl.isPrefix.length_le
  · rintro ⟨n, hn, before, line, hl, hp, rfl⟩
    refine ⟨before, line, ⟨?_, hl.starts, hl.ends⟩, hp⟩
    exact List.prefix_of_prefix_length_le hl.isPrefix hst (by simpa using hn)

theorem occursIn_iff {p s : List UInt8} : occursIn p s = true ↔ p <:+: s := by
  induction s with
  | nil => simp [occursIn]
  | cons b s ih => simp [occursIn, ih, List.infix_cons_iff]

/-! ### The bytes that can still begin a match -/

/-- The last `n` bytes. -/
def lastBytes (n : Nat) (t : List UInt8) : List UInt8 := t.drop (t.length - n)

/-- Cutting off what is too old may be done before or after more bytes come. -/
theorem lastBytes_append (n : Nat) (t seg : List UInt8) :
    lastBytes n (lastBytes n t ++ seg) = lastBytes n (t ++ seg) := by
  have e : lastBytes n t ++ seg = (t ++ seg).drop (t.length - n) := by
    rw [lastBytes, List.drop_append_of_le_length (by omega)]
  rw [e, lastBytes, lastBytes, List.drop_drop]
  congr 1
  simp only [List.length_drop, List.length_append]
  omega

/-- A match in a line with more bytes at its end lies in the old bytes, or it begins in the last `p.length - 1` of
them or later. -/
theorem infix_append_iff (p t seg : List UInt8) :
    p <:+: t ++ seg ↔ (t ≠ [] ∧ p <:+: t) ∨ p <:+: lastBytes (p.length - 1) t ++ seg := by
  have hdrop : lastBytes (p.length - 1) t ++ seg = (t ++ seg).drop (t.length - (p.length - 1)) := by
    rw [lastBytes, List.drop_append_of_le_length (by omega)]
  constructor
  · rintro ⟨a, b, h⟩
    have hlen := congrArg List.length h
    simp only [List.length_append] at hlen
    -- a match that ends among the new bytes has at most `p.length - 1` bytes before them
    by_cases hb : b.length < seg.length
    · right
      rcases p.eq_nil_or_concat with hp | ⟨q, x, hp⟩
      · rw [hp]
        exact List.nil_infix
      · have hq : p.length = q.length + 1 := by simp [hp]
        rw [hdrop, ← h, List.drop_append_of_le_length (by simp; omega), List.drop_append_of_le_length (by omega)]
        exact List.infix_append ..
    · by_cases ht : t = []
      · right
        subst ht
        simpa [lastBytes] using ⟨a, b, h⟩
      · left
        refine ⟨ht, ?_⟩
        have hap : a ++ p <+: t ++ seg := h ▸ List.prefix_append ..
        have hp : a ++ p <+: t := List.prefix_of_prefix_length_le hap (List.prefix_append ..) (by simp; omega)
        exact (List.suffix_append a p).isInfix.trans hp.isInfix
  · rintro (⟨-, h⟩ | h)
    · exact h.trans (List.prefix_append t seg).isInfix
    · rw [hdrop] at h
      exact h.trans (List.drop_suffix ..).isInfix

/-! ### The state of a watch and the bytes so far -/

/-- A watch for `p` knows of the bytes `s` so far: whether a line that has ended holds `p`; and if none does, the
bytes of the unfinished line that can still begin a match and whether that line holds `p` already. -/
structure Watches (p s : List UInt8) (w : LineWatch) : Prop where
  pattern_eq : w.pattern = p
  seen_iff : w.seen = true ↔ HoldsLine p s
  pending_eq : w.seen = false → w.pending = lastBytes (p.length - 1) (unfinished s)
  matched_iff : w.seen = false → (w.lineMatched = true ↔ unfinished s ≠ [] ∧ p <:+: unfinished s)
  pending_of_seen : w.seen = true → w.pending = []

theorem watches_new (p : List UInt8) : Watches p [] (LineWatch.new p) where
  pattern_eq := rfl
  seen_iff := by
    constructor
    · intro h
      simp [LineWatch.new] at h
    · rintro ⟨before, line, hl, -⟩
      obtain ⟨body, -, rfl⟩ := hl.ends
      have := hl.isPrefix
      simp at this
  pending_eq _ := by simp [LineWatch.new, unfinished, lastBytes]
  matched_iff _ := by simp [LineWatch.new, unfinished]
  pending_of_seen h := by simp [LineWatch.new] at h

namespace Watches

variable {p s : List UInt8} {w : LineWatch}

/-- A watch that has seen its line goes on knowing that. -/
theorem of_seen (h : Watches p s w) (hw : w.seen = true) (seg : List UInt8) : Watches p (s ++ seg) w where
  pattern_eq := h.pattern_eq
  seen_iff := ⟨fun _ => (h.seen_iff.1 hw).mono (List.prefix_append ..), fun _ => hw⟩
  pending_eq h' := by simp [hw] at h'
  matched_iff h' := by simp [hw] at h'
  pending_of_seen := h.pending_of_seen

/-- The watch finds a match in the unfinished line and more bytes, though it has kept only a few of its bytes. -/
theorem isMatch_iff (h : Watches p s w) (hw : w.seen = false) (seg : List UInt8) :
    (w.lineMatched || occursIn w.pattern (w.pending ++ seg)) = true ↔ p <:+: unfinished s ++ seg := by
  rw [Bool.or_eq_true, h.matched_iff hw, occursIn_iff, h.pattern_eq, h.pending_eq hw, ← infix_append_iff]

/-- More bytes of a line that does not end yet. -/
theorem feedSegment_open (h : Watches p s w) {seg : List UInt8} (hne : seg ≠ []) (hseg : newline ∉ seg) :
    Watches p (s ++ seg) (w.feedSegment seg) := by
  cases hw : w.seen with
  | true =>
    have e : w.feedSegment seg = w := by simp [LineWatch.feedSegment, hw]
    rw [e]
    exact h.of_seen hw seg
  | false =>
    have hlast : seg.getLast? ≠ some newline := fun hl => hseg (List.mem_of_getLast? hl)
    have e : w.feedSegment seg =
        { w with
          pending := lastBytes (p.length - 1) (unfinished (s ++ seg))
          lineMatched := w.lineMatched || occursIn w.pattern (w.pending ++ seg) } := by
      rw [unfinished_append hseg, ← lastBytes_append, ← h.pending_eq hw]
      simp [LineWatch.feedSegment, hw, hlast, LineWatch.keep, h.pattern_eq, lastBytes]
    have hm := h.isMatch_iff hw seg
    rw [e]
    refine ⟨h.pattern_eq, ?_, fun _ => rfl, fun _ => ?_, fun h' => by simp [hw] at h'⟩
    · rw [holdsLine_append_open hseg]
      exact h.seen_iff
    · rw [unfinished_append hseg]
      simp only [hm, ne_eq, List.append_eq_nil_iff, hne, and_false, not_false_eq_true, true_and]

/-- The rest of a line. -/
theorem feedSegment_end (h : Watches p s w) {body : List UInt8} (hbody : newline ∉ body) :
    Watches p (s ++ (body ++ [newline])) (w.feedSegment (body ++ [newline])) := by
  cases hw : w.seen with
  | true =>
    have e : w.feedSegment (body ++ [newline]) = w := by simp [LineWatch.feedSegment, hw]
    rw [e]
    exact h.of_seen hw _
  | false =>
    -- no line before held the pattern, so it is the line that ends now or none
    have hold : ¬ HoldsLine p s := by
      rw [← h.seen_iff, hw]
      exact Bool.false_ne_true
    have hu : unfinished (s ++ (body ++ [newline])) = [] := by
      rw [← List.append_assoc]
      exact unfinished_end _
    have hm := h.isMatch_iff hw (body ++ [newline])
    have hs := holdsLine_append_end (p := p) (s := s) hbody
    rw [← hm] at hs
    cases hmatch : (w.lineMatched || occursIn w.pattern (w.pending ++ (body ++ [newline]))) with
    | true =>
      have e : w.feedSegment (body ++ [newline]) = { w with pending := [], lineMatched := true, seen := true } := by
        simp only [LineWatch.feedSegment, hw, hmatch, List.getLast?_concat]
        rfl
      rw [e]
      exact ⟨h.pattern_eq, by simp [hs, hmatch], by simp, by simp, by simp⟩
    | false =>
      have e : w.feedSegment (body ++ [newline]) = { w with pending := [], lineMatched := false } := by
        simp only [LineWatch.feedSegment, hw, hmatch, List.getLast?_concat]
        rfl
      rw [e]
      refine ⟨h.pattern_eq, ?_, fun _ => ?_, fun _ => ?_, fun _ => rfl⟩
      · simp [hs, hmatch, hold, hw]
      · simp [hu, lastBytes]
      · simp [hu]

/-- One piece of a line keeps what the watch knows. -/
theorem feedSegment (h : Watches p s w) {seg : List UInt8} (hseg : IsPiece seg) :
    Watches p (s ++ seg) (w.feedSegment seg) := by
  rcases hseg.cases with hopen | ⟨body, hbody, rfl⟩
  · exact h.feedSegment_open hseg.1 hopen
  · exact h.feedSegment_end hbody

private theorem foldl_feedSegment (segs : List (List UInt8)) (hsegs : ∀ seg ∈ segs, IsPiece seg) :
    ∀ {s : List UInt8} {w : LineWatch}, Watches p s w →
      Watches p (s ++ segs.flatten) (segs.foldl LineWatch.feedSegment w) := by
  induction segs with
  | nil =>
    intro s w h
    simpa using h
  | cons seg segs ih =>
    intro s w h
    have := ih (fun x hx => hsegs x (by simp [hx])) (h.feedSegment (hsegs seg (by simp)))
    simpa using this

/-- One chunk keeps what the watch knows, wherever it begins and ends. -/
theorem feed (h : Watches p s w) (chunk : List UInt8) : Watches p (s ++ chunk) (w.feed chunk) := by
  cases hw : w.seen with
  | true =>
    have e : w.feed chunk = w := by simp [LineWatch.feed, hw]
    rw [e]
    exact h.of_seen hw chunk
  | false =>
    have := foldl_feedSegment (segments chunk) (fun _ => isPiece_of_mem_segments) h
    rw [flatten_segments] at this
    simpa [LineWatch.feed, hw] using this

/-- The run: the watch knows all the bytes, however they were cut into chunks. -/
theorem feedAll (h : Watches p s w) (chunks : List (List UInt8)) :
    Watches p (s ++ chunks.flatten) (w.feedAll chunks) := by
  induction chunks generalizing s w with
  | nil => simpa [LineWatch.feedAll] using h
  | cons c cs ih => simpa [LineWatch.feedAll] using ih (h.feed c)

end Watches

/-! ### What a watch sees of chunks -/

/-- After some of the chunks the watch has seen its pattern exactly when the first line of the whole stream that holds
it ends within them. -/
theorem seen_take_iff (p : List UInt8) (chunks : List (List UInt8)) (i : Nat) :
    ((LineWatch.new p).feedAll (chunks.take i)).seen = true ↔
      ∃ n ≤ (chunks.take i).flatten.length, MatchEnds p chunks.flatten n := by
  have h := ((watches_new p).feedAll (chunks.take i)).seen_iff
  have hprefix : (chunks.take i).flatten <+: chunks.flatten := by
    conv => rhs; rw [← List.take_append_drop i chunks, List.flatten_append]
    exact List.prefix_append ..
  rw [h, List.nil_append, holdsLine_prefix_iff hprefix]

theorem length_flatten_take_le (chunks : List (List UInt8)) {i j : Nat} (h : i ≤ j) :
    (chunks.take i).flatten.length ≤ (chunks.take j).flatten.length := by
  have : (chunks.take i).flatten <+: (chunks.take j).flatten := by
    rw [← List.take_append_drop i (chunks.take j), List.take_take, Nat.min_eq_left h, List.flatten_append]
    exact List.prefix_append ..
  exact this.length_le

/-- A watch has seen its pattern exactly when a line that has ended holds it, whatever the chunks were; the flag rises
with the chunk that has the last byte of the first such line, and it never falls again. -/
theorem seen_feedAll_exact (p : List UInt8) (chunks : List (List UInt8)) :
    (((LineWatch.new p).feedAll chunks).seen = true ↔ HoldsLine p chunks.flatten) ∧
    (∀ i, (((LineWatch.new p).feedAll (chunks.take i)).seen = false ∧
        ((LineWatch.new p).feedAll (chunks.take (i + 1))).seen = true) ↔
      ∃ n, IsLeast {n | MatchEnds p chunks.flatten n} n ∧
        (chunks.take i).flatten.length < n ∧ n ≤ (chunks.take (i + 1)).flatten.length) ∧
    (∀ i j, i ≤ j → ((LineWatch.new p).feedAll (chunks.take i)).seen = true →
      ((LineWatch.new p).feedAll (chunks.take j)).seen = true) := by
  refine ⟨?_, fun i => ?_, fun i j hij hi => ?_⟩
  · simpa using ((watches_new p).feedAll chunks).seen_iff
  · rw [← Bool.not_eq_true, seen_take_iff, seen_take_iff]
    constructor
    · rintro ⟨hbefore, n, hn, hmatch⟩
      -- the least end of a match is at most `n`, and none lies in the chunks before
      classical
      have hex : ∃ n, MatchEnds p chunks.flatten n := ⟨n, hmatch⟩
      refine ⟨Nat.find hex, ⟨Nat.find_spec hex, fun m hm => Nat.find_min' hex hm⟩, ?_, ?_⟩
      · by_contra hle
        exact hbefore ⟨Nat.find hex, by omega, Nat.find_spec hex⟩
      · exact (Nat.find_min' hex hmatch).trans hn
    · rintro ⟨n, ⟨hmatch, hleast⟩, hlt, hle⟩
      refine ⟨?_, n, hle, hmatch⟩
      rintro ⟨m, hm, hmatch'⟩
      have := hleast hmatch'
      omega
  · rw [seen_take_iff] at hi ⊢
    obtain ⟨n, hn, hmatch⟩ := hi
    exact ⟨n, hn.trans (length_flatten_take_le chunks hij), hmatch⟩

/-- The pattern `ab` in the line `xab`, which is cut inside the pattern and goes on with another line. -/
theorem seen_across_cut :
    ((LineWatch.new [97, 98]).feedAll ([[120, 97], [98, 10], [121]].take 2)).seen = true ∧
      ((LineWatch.new [97, 98]).feedAll ([[120, 97], [98, 10], [121]].take 3)).seen = true :=
  ⟨by decide, (seen_feedAll_exact [97, 98] [[120, 97], [98, 10], [121]]).2.2 2 3 (by decide) (by decide)⟩

end AppLauncher.Output
