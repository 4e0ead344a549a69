import AppLauncher.Config.Schema
import AppLauncher.Proofs.Document.Entries
import Mathlib.Data.List.Nodup

/-!
# Records place by place

A record of the configuration is a number of named places that can be read and set one by one and that are all there
is to it (`Layout`).  The settings of a section have their fields as places, and the configuration has its sections.
Reading entries with distinct keys into a record gives each place what its entry says, and leaves a place without an
entry as it is; no order of the entries makes a difference (`readEntries_eq_ok_iff`).
-/

namespace AppLauncher.Schema

open AppLauncher.Document (lookup_cons_of_ne lookup_eq_none_of_notMem lookup_eq_some_iff_mem)

/-- Readings that succeed alike have the same result. -/
theorem toOption_congr {ε ε' α : Type} {x : Except ε α} {y : Except ε' α} (h : ∀ a, x = .ok a ↔ y = .ok a) :
    x.toOption = y.toOption := by
  cases x with
  | ok a => rw [(h a).1 rfl]; rfl
  | error e =>
    cases y with
    | ok a => cases (h a).2 rfl
    | error e' => rfl

/-- Items that are read in order are entries under the names of the slots. -/
theorem readItems_eq_readEntries {V ε R : Type} {slots : List (Slot V ε R)} (h : (slots.map Slot.name).Nodup)
    (items : List V) (r : R) :
    readItems slots items r = readEntries slots ((slots.map Slot.name).zip items) r := by
  -- the entries are read into all slots, while the items are read into those that are left
  have hall : ∀ before left : List (Slot V ε R), slots = before ++ left → ∀ (items : List V) (r : R),
      readItems left items r = readEntries slots ((left.map Slot.name).zip items) r := by
    intro before left
    induction left generalizing before with
    | nil => exact fun _ _ _ => rfl
    | cons s left ih =>
      rintro rfl items r
      cases items with
      | nil => rfl
      | cons v items =>
        have hfresh : ∀ t ∈ before, t.name ≠ s.name := by
          rw [List.map_append, List.nodup_append] at h
          exact fun t ht heq =>
            h.2.2 _ (List.mem_map.2 ⟨t, ht, rfl⟩) _ (List.mem_map.2 ⟨s, by simp, rfl⟩) heq
        have hfind : (before ++ s :: left).find? (fun t => t.name == s.name) = some s := by
          rw [List.find?_append, List.find?_eq_none.2 fun t ht => by simpa using hfresh t ht]
          simp
        rw [List.map_cons, List.zip_cons_cons, readItems, readEntries, hfind]
        dsimp only
        cases s.store v r with
        | error e => rfl
        | ok r' => exact ih (before ++ [s]) (by simp) items r'
  exact hall [] slots rfl items r

/-- A record seen place by place. -/
structure Layout (R : Type) where
  Place : Type
  places : List Place
  name : Place → String
  Content : Place → Type
  get : (p : Place) → R → Content p
  set : (p : Place) → Content p → R → R
  names_nodup : (places.map name).Nodup
  get_set : ∀ p ∈ places, ∀ x r, get p (set p x r) = x
  get_set_of_ne : ∀ p ∈ places, ∀ q ∈ places, name p ≠ name q → ∀ x r, get q (set p x r) = get q r
  ext : ∀ a b, (∀ p ∈ places, get p a = get p b) → a = b

/-- The fields of a section are the places of its settings. -/
def Section.layout (s : Section) : Layout s.Settings where
  Place := Field s.Settings
  places := s.fields
  name := Field.name
  Content f := f.kind.Carrier
  get := Field.get
  set := Field.set
  names_nodup := by cases s <;> decide
  get_set := by
    cases s
    all_goals
      simp only [Section.fields, List.forall_mem_cons]
      simp
  get_set_of_ne := by
    cases s
    all_goals
      simp only [Section.fields, List.forall_mem_cons]
      simp
  ext := by
    cases s
    all_goals
      rintro ⟨⟩ ⟨⟩ h
      simp only [Section.fields, List.forall_mem_cons] at h
      simpa using h

/-- A field that is left out has the same default as a section that is left out has for it. -/
theorem Section.fallback_eq_default (s : Section) : s.fallback = s.default := by
  cases s <;> rfl

theorem Section.get_default (s : Section) : s.get {} = s.default := by
  cases s <;> rfl

theorem Section.mem_all (s : Section) : s ∈ Section.all := by
  cases s <;> decide

/-- The sections are the places of the configuration. -/
def configLayout : Layout Config where
  Place := Section
  places := Section.all
  name := Section.name
  Content := Section.Settings
  get := Section.get
  set := Section.set
  names_nodup := by decide
  get_set := by
    rintro p - x r
    cases p <;> rfl
  get_set_of_ne := by
    rintro p - q - h x r
    cases p <;> cases q <;> first | rfl | exact absurd rfl h
  ext := by
    rintro ⟨⟩ ⟨⟩ h
    simpa [Section.all, Section.get] using h

namespace Layout

variable {R V ε : Type} (L : Layout R)

/-- The places as slots, each read by its own reader. -/
def slots (read : (p : L.Place) → V → Except ε (L.Content p)) : List (Slot V ε R) :=
  L.places.map fun p => ⟨L.name p, fun v r => (read p v).map fun x => L.set p x r⟩

theorem eq_of_name_eq {p q : L.Place} (hp : p ∈ L.places) (hq : q ∈ L.places) (h : L.name p = L.name q) : p = q :=
  List.inj_on_of_nodup_map L.names_nodup hp hq h

/-- What a place holds after entries were read: what its entry says, or what it held before. -/
def Filled (read : (p : L.Place) → V → Except ε (L.Content p)) (entries : List (String × V)) (base r : R)
    (p : L.Place) : Prop :=
  match entries.lookup (L.name p) with
  | some v => read p v = .ok (L.get p r)
  | none => L.get p r = L.get p base

variable {L} {read : (p : L.Place) → V → Except ε (L.Content p)}

/-- All that counts of the entries is what stands under the name of the place. -/
theorem filled_congr {entries entries' : List (String × V)} {base r : R} {p : L.Place}
    (h : entries'.lookup (L.name p) = entries.lookup (L.name p)) :
    L.Filled read entries' base r p ↔ L.Filled read entries base r p := by
  rw [Filled, Filled, h]

private theorem find?_slots (L : Layout R) (read : (p : L.Place) → V → Except ε (L.Content p)) (k : String) :
    (∃ p ∈ L.places, L.name p = k ∧
      (L.slots read).find? (fun s => s.name == k) = some ⟨k, fun v r => (read p v).map fun x => L.set p x r⟩) ∨
    ((∀ p ∈ L.places, L.name p ≠ k) ∧ (L.slots read).find? (fun s => s.name == k) = none) := by
  by_cases h : ∃ p ∈ L.places, L.name p = k
  · left
    obtain ⟨p, hp, rfl⟩ := h
    refine ⟨p, hp, rfl, ?_⟩
    rw [slots, List.find?_map]
    have hfind : L.places.find? ((fun s : Slot V ε R => s.name == L.name p) ∘ fun p =>
        ⟨L.name p, fun v r => (read p v).map fun x => L.set p x r⟩) = some p := by
      cases hf : L.places.find? ((fun s : Slot V ε R => s.name == L.name p) ∘ fun p =>
          ⟨L.name p, fun v r => (read p v).map fun x => L.set p x r⟩) with
      | none =>
        have := List.find?_eq_none.1 hf p hp
        simp at this
      | some q =>
        have hq := List.find?_some hf
        simp only [Function.comp_apply, beq_iff_eq] at hq
        rw [L.eq_of_name_eq (List.mem_of_find?_eq_some hf) hp hq]
    rw [hfind]
    rfl
  · right
    simp only [not_exists, not_and] at h
    refine ⟨h, ?_⟩
    rw [List.find?_eq_none]
    intro s hs
    obtain ⟨p, hp, rfl⟩ := List.mem_map.1 hs
    simpa using h p hp

/-- Reading entries with distinct keys fills every place, in whatever order the entries stand. -/
theorem readEntries_eq_ok_iff {entries : List (String × V)} (hkeys : (entries.map Prod.fst).Nodup) {base r : R} :
    readEntries (L.slots read) entries base = .ok r ↔ ∀ p ∈ L.places, L.Filled read entries base r p := by
  induction entries generalizing base with
  | nil =>
    constructor
    · intro h
      cases h
      exact fun _ _ => rfl
    · intro h
      have : r = base := L.ext _ _ h
      rw [this]
      rfl
  | cons e rest ih =>
    obtain ⟨k, v⟩ := e
    rw [List.map_cons, List.nodup_cons] at hkeys
    rcases find?_slots L read k with ⟨p, hp, rfl, hfind⟩ | ⟨hno, hfind⟩
    · -- the entry has a place, and no entry after it has the same one
      have hlater : rest.lookup (L.name p) = none := lookup_eq_none_of_notMem hkeys.1
      simp only [readEntries, hfind]
      cases hread : read p v with
      | error e =>
        simp only [Except.map]
        constructor
        · intro h
          cases h
        · intro h
          have := h p hp
          simp [Filled, hread] at this
      | ok x =>
        simp only [Except.map]
        rw [ih hkeys.2]
        refine forall₂_congr fun q hq => ?_
        by_cases hqp : L.name q = L.name p
        · obtain rfl := L.eq_of_name_eq hq hp hqp
          simp only [Filled, hlater, List.lookup_cons_self, hread, L.get_set q hp, Except.ok.injEq]
          exact eq_comm
        · simp only [Filled, lookup_cons_of_ne hqp, L.get_set_of_ne p hp q hq (Ne.symm hqp)]
    · -- an entry without a place is passed over
      simp only [readEntries, hfind]
      rw [ih hkeys.2]
      refine forall₂_congr fun q hq => ?_
      simp only [Filled, lookup_cons_of_ne (hno q hq)]

/-- Entries made of some of the places hold, under the name of a place, what was made of it if it is one of them. -/
theorem lookup_places (L : Layout R) (keep : L.Place → Bool) (value : L.Place → V) {p : L.Place} (hp : p ∈ L.places) :
    ((L.places.filter keep).map fun p => (L.name p, value p)).lookup (L.name p) =
      if keep p then some (value p) else none := by
  have hkeys : (((L.places.filter keep).map fun p => (L.name p, value p)).map Prod.fst).Nodup := by
    rw [List.map_map]
    exact L.names_nodup.sublist (List.filter_sublist.map L.name)
  split
  · rename_i hkeep
    rw [lookup_eq_some_iff_mem hkeys]
    exact List.mem_map.2 ⟨p, List.mem_filter.2 ⟨hp, hkeep⟩, rfl⟩
  · rename_i hkeep
    refine lookup_eq_none_of_notMem fun hmem => ?_
    obtain ⟨e, he, hname⟩ := List.mem_map.1 hmem
    obtain ⟨q, hq, rfl⟩ := List.mem_map.1 he
    obtain ⟨hq, hkept⟩ := List.mem_filter.1 hq
    exact hkeep (L.eq_of_name_eq hq hp hname ▸ hkept)

/-- A record is read from entries that give every place its content, whatever it is read over. -/
theorem readEntries_all (L : Layout R) (read : (p : L.Place) → V → Except ε (L.Content p)) {value : L.Place → V}
    {base r : R} (h : ∀ p ∈ L.places, read p (value p) = .ok (L.get p r)) :
    readEntries (L.slots read) (L.places.map fun p => (L.name p, value p)) base = .ok r := by
  have hkeys : ((L.places.map fun p => (L.name p, value p)).map Prod.fst).Nodup := by
    rw [List.map_map]
    exact L.names_nodup
  rw [readEntries_eq_ok_iff hkeys]
  intro p hp
  rw [Filled, (lookup_eq_some_iff_mem hkeys).2 (List.mem_map.2 ⟨p, hp, rfl⟩)]
  exact h p hp

/-- Whatever the places are to hold, there is a record in which they do. -/
theorem exists_record (L : Layout R) (x : (p : L.Place) → L.Content p) (base : R) :
    ∃ r, ∀ p ∈ L.places, L.get p r = x p := by
  have hall : ∀ ps : List L.Place, (∀ p ∈ ps, p ∈ L.places) → ∃ r, ∀ p ∈ ps, L.get p r = x p := by
    intro ps
    induction ps with
    | nil => exact fun _ => ⟨base, by simp⟩
    | cons p ps ih =>
      intro hps
      obtain ⟨r, hr⟩ := ih fun q hq => hps q (by simp [hq])
      have hp : p ∈ L.places := hps p (by simp)
      refine ⟨L.set p (x p) r, fun q hq => ?_⟩
      by_cases hname : L.name p = L.name q
      · obtain rfl := L.eq_of_name_eq hp (hps q hq) hname
        exact L.get_set p hp _ _
      · have hmem : q ∈ ps := (List.mem_cons.1 hq).resolve_left fun h => hname (h ▸ rfl)
        rw [L.get_set_of_ne p hp q (hps q hq) hname]
        exact hr q hmem
  exact hall L.places fun _ hp => hp

end Layout

end AppLauncher.Schema
