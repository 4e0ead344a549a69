import AppLauncher.Output.Forward
import AppLauncher.Proofs.Output.LineWatch

/-!
# What is delivered

A forwarding delivers one chunk after the other until a read ends it: the end of the stream, a read that fails, or a
chunk that the sink does not take or does not flush.  Whatever the reads are, the watch has got exactly the chunks that
were delivered before that (`foldl_step_split`), so it has seen its pattern exactly if a line with the pattern was
delivered (`lineSeen_iff`).
-/

namespace AppLauncher.Output

variable {σ : Type} {s : Sink σ} {a b d : σ} {c : List UInt8} {cs : List (List UInt8)} {p : List UInt8}

/-- A chunk is written whole and flushed, which makes `b` of the sink `a`. -/
structure Takes (s : Sink σ) (a : σ) (c : List UInt8) (b : σ) : Prop where
  ne_nil : c ≠ []
  written : (s.writeAll c a).fault? = none
  flushed : (s.flush (s.writeAll c a).sink).fault? = none
  sink_eq : (s.flush (s.writeAll c a).sink).sink = b

/-- Chunks are written whole and flushed one after the other. -/
inductive Delivers (s : Sink σ) : σ → List (List UInt8) → σ → Prop
  | nil (a : σ) : Delivers s a [] a
  | cons {a b d : σ} {c : List UInt8} {cs : List (List UInt8)} (h : Takes s a c b) (hcs : Delivers s b cs d) :
      Delivers s a (c :: cs) d

/-- A read that ends the forwarding to a sink. -/
inductive Ends (s : Sink σ) (a : σ) : Read → Prop
  | endOfStream : Ends s a (.bytes [])
  | readFails (e : Fault) : Ends s a (.failed e)
  | writeFails (c : List UInt8) (e : Fault) (hc : c ≠ []) (h : (s.writeAll c a).fault? = some e) :
      Ends s a (.bytes c)
  | flushFails (c : List UInt8) (e : Fault) (hc : c ≠ []) (hw : (s.writeAll c a).fault? = none)
      (h : (s.flush (s.writeAll c a).sink).fault? = some e) : Ends s a (.bytes c)

/-- Of what was read, a line that holds `p` was delivered: it lies in the first chunks, all of which were. -/
def Delivered (s : Sink σ) (a : σ) (p : List UInt8) (rs : List Read) : Prop :=
  ∃ cs b rest, rs = cs.map Read.bytes ++ rest ∧ Delivers s a cs b ∧ HoldsLine p cs.flatten

/-- The forwarding of what was read has ended, and no line that holds `p` was delivered before. -/
def EndedWithout (s : Sink σ) (a : σ) (p : List UInt8) (rs : List Read) : Prop :=
  ∃ cs b r rest, rs = cs.map Read.bytes ++ r :: rest ∧ Delivers s a cs b ∧ Ends s b r ∧ ¬ HoldsLine p cs.flatten

theorem Delivered.append {rs : List Read} (h : Delivered s a p rs) (rs' : List Read) : Delivered s a p (rs ++ rs') := by
  obtain ⟨cs, b, rest, rfl, hcs, hline⟩ := h
  exact ⟨cs, b, rest ++ rs', List.append_assoc .., hcs, hline⟩

namespace Forwarding

variable {f : Forwarding σ} {r : Read}

/-! ### One read -/

theorem step_of_isOver (h : f.isOver = true) (r : Read) : f.step s r = f := by
  obtain ⟨result, hresult⟩ := Option.isSome_iff_exists.1 h
  simp [step, hresult]

theorem foldl_step_of_isOver (h : f.isOver = true) (rs : List Read) : rs.foldl (step s) f = f := by
  induction rs with
  | nil => rfl
  | cons r rs ih => rw [List.foldl_cons, step_of_isOver h, ih]

theorem step_of_takes (hf : f.result? = none) (h : Takes s f.sink c b) :
    (f.step s (.bytes c)).result? = none ∧ (f.step s (.bytes c)).sink = b ∧
      (f.step s (.bytes c)).watch = f.watch.map (·.feed c) := by
  obtain ⟨x, c, rfl⟩ := List.exists_cons_of_ne_nil h.ne_nil
  simp [step, pass, hf, h.written, h.flushed, h.sink_eq]

theorem step_of_ends (hf : f.result? = none) (h : Ends s f.sink r) :
    (f.step s r).isOver = true ∧ (f.step s r).watch = f.watch := by
  cases h with
  | endOfStream => cases he : (s.close f.sink).fault? <;> simp [step, finish, failed, isOver, hf, he]
  | readFails e => simp [step, failed, isOver, hf]
  | writeFails c e hc h =>
    obtain ⟨x, c, rfl⟩ := List.exists_cons_of_ne_nil hc
    simp [step, pass, failed, isOver, hf, h]
  | flushFails c e hc hw h =>
    obtain ⟨x, c, rfl⟩ := List.exists_cons_of_ne_nil hc
    simp [step, pass, failed, isOver, hf, hw, h]

/-- A read brings a chunk that the sink takes, or it ends the forwarding. -/
theorem takes_or_ends (s : Sink σ) (a : σ) (r : Read) : (∃ c b, r = .bytes c ∧ Takes s a c b) ∨ Ends s a r := by
  cases r with
  | failed e => exact Or.inr (.readFails e)
  | bytes c =>
    by_cases hc : c = []
    · subst hc
      exact Or.inr .endOfStream
    · cases hw : (s.writeAll c a).fault? with
      | some e => exact Or.inr (.writeFails c e hc hw)
      | none =>
        cases hl : (s.flush (s.writeAll c a).sink).fault? with
        | some e => exact Or.inr (.flushFails c e hc hw hl)
        | none => exact Or.inl ⟨c, _, rfl, hc, hw, hl, rfl⟩

theorem lineSeen_step (h : f.lineSeen = true) (r : Read) : (f.step s r).lineSeen = true := by
  cases hf : f.result? with
  | some result => rwa [step_of_isOver (by simp [isOver, hf])]
  | none =>
    rcases takes_or_ends s f.sink r with ⟨c, b, rfl, ht⟩ | he
    · rw [lineSeen, (step_of_takes hf ht).2.2]
      obtain ⟨w, hw, hseen⟩ := (Option.any_eq_true _ _).1 h
      simp [hw, LineWatch.feed, hseen]
    · rwa [lineSeen, (step_of_ends hf he).2]

/-! ### Any reads -/

private theorem map_feedAll_nil (w : Option LineWatch) : w.map (·.feedAll []) = w := by
  cases w <;> rfl

theorem lineSeen_foldl_step (h : f.lineSeen = true) (rs : List Read) :
    (rs.foldl (step s) f).lineSeen = true := by
  induction rs generalizing f with
  | nil => exact h
  | cons r rs ih => exact ih (lineSeen_step h r)

theorem foldl_step_of_delivers (hf : f.result? = none) (h : Delivers s f.sink cs b) :
    ((cs.map Read.bytes).foldl (step s) f).result? = none ∧
      ((cs.map Read.bytes).foldl (step s) f).sink = b ∧
      ((cs.map Read.bytes).foldl (step s) f).watch = f.watch.map (·.feedAll cs) := by
  induction cs generalizing f with
  | nil =>
    cases h
    exact ⟨hf, rfl, (map_feedAll_nil f.watch).symm⟩
  | cons c cs ih =>
    cases h with
    | cons ht hcs =>
      obtain ⟨hresult, hsink, hwatch⟩ := step_of_takes hf ht
      obtain ⟨hresult', hsink', hwatch'⟩ := ih hresult (hsink ▸ hcs)
      refine ⟨hresult', hsink', hwatch'.trans ?_⟩
      rw [hwatch, Option.map_map]
      rfl

/-- Reads are chunks that were all delivered, or such chunks and then a read that ends the forwarding.  The watch got
these chunks and no others. -/
theorem foldl_step_split (hf : f.result? = none) (rs : List Read) :
    ∃ cs b, Delivers s f.sink cs b ∧ (rs.foldl (step s) f).watch = f.watch.map (·.feedAll cs) ∧
      (rs = cs.map Read.bytes ∧ (rs.foldl (step s) f).isOver = false ∨
        ∃ r rest, rs = cs.map Read.bytes ++ r :: rest ∧ Ends s b r ∧ (rs.foldl (step s) f).isOver = true) := by
  induction rs generalizing f with
  | nil => exact ⟨[], f.sink, .nil _, (map_feedAll_nil f.watch).symm, Or.inl ⟨rfl, by simp [isOver, hf]⟩⟩
  | cons r rs ih =>
    rw [List.foldl_cons]
    rcases takes_or_ends s f.sink r with ⟨c, b, rfl, ht⟩ | he
    · obtain ⟨hresult, hsink, hwatch⟩ := step_of_takes hf ht
      obtain ⟨cs, d, hcs, hfed, hend⟩ := ih hresult
      refine ⟨c :: cs, d, .cons ht (hsink ▸ hcs), ?_, ?_⟩
      · rw [hfed, hwatch, Option.map_map]
        rfl
      · rcases hend with ⟨hrs, hopen⟩ | ⟨r, rest, hrs, hr, hover⟩
        · exact Or.inl ⟨by rw [hrs, List.map_cons], hopen⟩
        · exact Or.inr ⟨r, rest, by rw [hrs, List.map_cons, List.cons_append], hr, hover⟩
    · obtain ⟨hover, hwatch⟩ := step_of_ends hf he
      -- what is read after the end changes nothing
      rw [foldl_step_of_isOver hover]
      exact ⟨[], f.sink, .nil _, hwatch.trans (map_feedAll_nil f.watch).symm, Or.inr ⟨r, rs, rfl, he, hover⟩⟩

/-! ### The watched line -/

/-- A forwarding to a sink that has not read anything yet, with a watch for `p`. -/
def watching (a : σ) (p : List UInt8) : Forwarding σ := { sink := a, watch := some (.new p) }

theorem seen_feedAll_iff (p : List UInt8) (cs : List (List UInt8)) :
    ((LineWatch.new p).feedAll cs).seen = true ↔ HoldsLine p cs.flatten := by
  simpa using ((watches_new p).feedAll cs).seen_iff

/-- The watched line is seen exactly if it was delivered. -/
theorem lineSeen_iff (s : Sink σ) (a : σ) (p : List UInt8) (rs : List Read) :
    (rs.foldl (step s) (watching a p)).lineSeen = true ↔ Delivered s a p rs := by
  constructor
  · intro h
    obtain ⟨cs, b, hcs, hwatch, hend⟩ := foldl_step_split (s := s) (f := watching a p) rfl rs
    rw [lineSeen, hwatch] at h
    have hline : HoldsLine p cs.flatten := (seen_feedAll_iff p cs).1 h
    rcases hend with ⟨hrs, -⟩ | ⟨r, rest, hrs, -, -⟩
    · exact ⟨cs, b, [], by rw [hrs, List.append_nil], hcs, hline⟩
    · exact ⟨cs, b, r :: rest, hrs, hcs, hline⟩
  · rintro ⟨cs, b, rest, rfl, hcs, hline⟩
    have hwatch := (foldl_step_of_delivers (f := watching a p) rfl hcs).2.2
    rw [List.foldl_append]
    refine lineSeen_foldl_step ?_ rest
    rw [lineSeen, hwatch]
    exact (seen_feedAll_iff p cs).2 hline

/-- A forwarding is over without its line exactly if a read has ended it before the line was delivered. -/
theorem isOver_and_not_lineSeen_iff (s : Sink σ) (a : σ) (p : List UInt8) (rs : List Read) :
    ((rs.foldl (step s) (watching a p)).isOver = true ∧ (rs.foldl (step s) (watching a p)).lineSeen = false) ↔
      EndedWithout s a p rs := by
  constructor
  · rintro ⟨hover, hseen⟩
    obtain ⟨cs, b, hcs, hwatch, hend⟩ := foldl_step_split (s := s) (f := watching a p) rfl rs
    rw [lineSeen, hwatch] at hseen
    have hline : ¬ HoldsLine p cs.flatten := fun h => by
      have := (seen_feedAll_iff p cs).2 h
      simp [watching, this] at hseen
    rcases hend with ⟨-, hopen⟩ | ⟨r, rest, hrs, hr, -⟩
    · simp [hover] at hopen
    · exact ⟨cs, b, r, rest, hrs, hcs, hr, hline⟩
  · rintro ⟨cs, b, r, rest, rfl, hcs, hr, hline⟩
    obtain ⟨hresult, hsink, hwatch⟩ := foldl_step_of_delivers (f := watching a p) rfl hcs
    obtain ⟨hover, hkept⟩ := step_of_ends hresult (hsink.symm ▸ hr)
    rw [List.foldl_append, List.foldl_cons, foldl_step_of_isOver hover]
    refine ⟨hover, ?_⟩
    rw [lineSeen, hkept, hwatch, ← Bool.not_eq_true]
    exact fun h => hline ((seen_feedAll_iff p cs).1 h)

end Forwarding

theorem EndedWithout.not_delivered {rs : List Read} (h : EndedWithout s a p rs) (rs' : List Read) :
    ¬ Delivered s a p (rs ++ rs') := by
  obtain ⟨hover, hseen⟩ := (Forwarding.isOver_and_not_lineSeen_iff s a p rs).2 h
  rw [← Forwarding.lineSeen_iff, List.foldl_append, Forwarding.foldl_step_of_isOver hover, hseen]
  exact Bool.false_ne_true

end AppLauncher.Output
