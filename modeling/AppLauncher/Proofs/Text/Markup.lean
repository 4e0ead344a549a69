import AppLauncher.Text.Markup

/-!
# Markup that is safe in a page

A text that is escaped has no character of a tag and no quote, and every ampersand in it begins an entity
(`isSafe_escape`); one pass from left to right gives the text back, also where it looks escaped already
(`unescape_escape`).  It adds no tag to a page (`tags_append_of_safe`).
-/

namespace AppLauncher.Text.Markup

/-- The characters that are escaped, each with its entity. -/
def entities : List (Char × List Char) :=
  [('&', "&amp;".toList), ('<', "&lt;".toList), ('>', "&gt;".toList), ('"', "&quot;".toList), ('\'', "&#39;".toList)]

/-- A text that can stand between tags and in an attribute: it begins and ends neither, and its ampersands are those of
entities. -/
structure IsSafe (cs : List Char) : Prop where
  ne_special : ∀ c ∈ cs, c ≠ '<' ∧ c ≠ '>' ∧ c ≠ '"' ∧ c ≠ '\''
  entity : ∀ rest, '&' :: rest <:+ cs → ∃ e ∈ entities, e.2 <+: '&' :: rest

/-- A character without an entity. -/
def isPlain (c : Char) : Bool := c != '&' && c != '<' && c != '>' && c != '"' && c != '\''

variable {c : Char} {cs ds : List Char}

/-! ### One character -/

theorem isPlain_iff : isPlain c = true ↔ c ≠ '&' ∧ c ≠ '<' ∧ c ≠ '>' ∧ c ≠ '"' ∧ c ≠ '\'' := by
  simp [isPlain, and_assoc]

/-- A character is escaped by its entity, or stands as it is. -/
theorem escapeChar_cases (c : Char) : (c, escapeChar c) ∈ entities ∨ escapeChar c = [c] ∧ isPlain c := by
  unfold escapeChar
  split
  · exact Or.inl (by decide)
  · exact Or.inl (by decide)
  · exact Or.inl (by decide)
  · exact Or.inl (by decide)
  · exact Or.inl (by decide)
  · rename_i hamp hlt hgt hquot hapos
    exact Or.inr ⟨rfl, isPlain_iff.2 ⟨hamp, hlt, hgt, hquot, hapos⟩⟩

theorem unescape_cons (hc : isPlain c) (rest : List Char) : unescape (c :: rest) = c :: unescape rest := by
  obtain ⟨hamp, -⟩ := isPlain_iff.1 hc
  rw [unescape]
  all_goals
    intros
    contradiction

theorem unescape_entity {e : Char × List Char} (he : e ∈ entities) (rest : List Char) :
    unescape (e.2 ++ rest) = e.1 :: unescape rest := by
  simp only [entities, List.mem_cons, List.not_mem_nil, or_false] at he
  rcases he with rfl | rfl | rfl | rfl | rfl <;> rfl

theorem unescape_escapeChar (c : Char) (rest : List Char) : unescape (escapeChar c ++ rest) = c :: unescape rest := by
  rcases escapeChar_cases c with he | ⟨he, hc⟩
  · exact unescape_entity he rest
  · rw [he]
    exact unescape_cons hc rest

/-- Putting the entities back undoes the escaping of any text. -/
theorem unescape_escape (cs : List Char) : unescape (escape cs) = cs := by
  induction cs with
  | nil => rfl
  | cons c cs ih =>
    unfold escape at ih ⊢
    rw [List.flatMap_cons, unescape_escapeChar, ih]

/-! ### Safe texts -/

theorem isSafe_nil : IsSafe [] where
  ne_special := by simp
  entity := by simp

theorem IsSafe.cons (hc : isPlain c) (h : IsSafe cs) : IsSafe (c :: cs) where
  ne_special := by
    intro d hd
    rcases List.mem_cons.1 hd with rfl | hd
    · exact (isPlain_iff.1 hc).2
    · exact h.ne_special d hd
  entity := by
    intro rest hrest
    rcases List.suffix_cons_iff.1 hrest with heq | hrest
    · exact absurd (List.cons.inj heq).1.symm (isPlain_iff.1 hc).1
    · exact h.entity rest hrest

/-- An entity begins with an ampersand, and the rest of it is never escaped. -/
theorem eq_cons_of_mem_entities {e : Char × List Char} (he : e ∈ entities) :
    ∃ name, e.2 = '&' :: name ∧ name.all isPlain := by
  simp only [entities, List.mem_cons, List.not_mem_nil, or_false] at he
  rcases he with rfl | rfl | rfl | rfl | rfl <;> exact ⟨_, rfl, by decide⟩

theorem IsSafe.append_plain (hds : ds.all isPlain) (h : IsSafe cs) : IsSafe (ds ++ cs) := by
  induction ds with
  | nil => exact h
  | cons d ds ih =>
    rw [List.all_cons, Bool.and_eq_true] at hds
    exact (ih hds.2).cons hds.1

theorem IsSafe.append_entity {e : Char × List Char} (he : e ∈ entities) (h : IsSafe cs) : IsSafe (e.2 ++ cs) := by
  obtain ⟨name, hname, hplain⟩ := eq_cons_of_mem_entities he
  have hsafe := h.append_plain hplain
  constructor
  · intro d hd
    rw [hname] at hd
    rcases List.mem_cons.1 hd with rfl | hd
    · decide
    · exact hsafe.ne_special d hd
  · intro rest hrest
    rw [hname] at hrest
    rcases List.suffix_cons_iff.1 hrest with heq | hrest
    · rw [heq]
      exact ⟨e, he, hname ▸ List.prefix_append e.2 cs⟩
    · exact hsafe.entity rest hrest

theorem isSafe_escape (cs : List Char) : IsSafe (escape cs) := by
  induction cs with
  | nil => exact isSafe_nil
  | cons c cs ih =>
    unfold escape at ih ⊢
    rw [List.flatMap_cons]
    rcases escapeChar_cases c with he | ⟨he, hc⟩
    · exact ih.append_entity he
    · rw [he]
      exact ih.cons hc

/-! ### Tags -/

/-- The tags of a page in order, each from a `<` to the next `>`.  The part of a tag that has been read stands in
reverse. -/
def tagsLoop : Option (List Char) → List Char → List (List Char)
  | _, [] => []
  | none, c :: rest => if c = '<' then tagsLoop (some [c]) rest else tagsLoop none rest
  | some part, c :: rest =>
    if c = '>' then (c :: part).reverse :: tagsLoop none rest else tagsLoop (some (c :: part)) rest

/-- The tags of a page in order. -/
def tags (page : List Char) : List (List Char) := tagsLoop none page

theorem tags_append_of_safe (h : IsSafe cs) (rest : List Char) : tags (cs ++ rest) = tags rest := by
  have hcs : ∀ c ∈ cs, c ≠ '<' := fun c hc => (h.ne_special c hc).1
  clear h
  induction cs with
  | nil => rfl
  | cons c cs ih =>
    have hrest := ih fun d hd => hcs d (List.mem_cons_of_mem _ hd)
    unfold tags at hrest ⊢
    rw [List.cons_append, tagsLoop, if_neg (hcs c List.mem_cons_self), hrest]

/-- No tag is open after a `>`. -/
theorem tags_append (cs rest : List Char) : tags (cs ++ '>' :: rest) = tags (cs ++ ['>']) ++ tags rest := by
  -- inside a tag and outside of one: the `>` ends the tag, or stands for itself
  have hloop (part : Option (List Char)) :
      tagsLoop part (cs ++ '>' :: rest) = tagsLoop part (cs ++ ['>']) ++ tagsLoop none rest := by
    induction cs generalizing part with
    | nil => cases part <;> simp [tagsLoop]
    | cons c cs ih =>
      cases part with
      | none =>
        simp only [List.cons_append, tagsLoop]
        split <;> exact ih _
      | some part =>
        simp only [List.cons_append, tagsLoop]
        split
        · rw [ih, List.cons_append]
        · exact ih _
  exact hloop none

end AppLauncher.Text.Markup
