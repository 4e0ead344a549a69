import AppLauncher.Proofs.Text.Base64
import AppLauncher.Proofs.Text.Markup
import AppLauncher.Proofs.Text.Utf8
import AppLauncher.Window.ErrorPage

/-!
# The error page and its URL carry both texts

A page is the empty page with two safe texts in it, so it has the same tags whatever the texts are (`tags_filled`), and
each text ends where the next tag begins (`read?_page`).  So the texts can be read off a page (`page_exact`), and a page
off its URL, which spells the bytes of the page in Base64 (`url_exact`).
-/

namespace AppLauncher.Window.ErrorPage

open AppLauncher.Text

/-- The page with some markup at its two places. -/
def filled (message version : List Char) : List Char :=
  opening.toList ++ message ++ middle.toList ++ version ++ closing.toList

/-- The message and the version of a page, if it is one: the texts up to the next `<`, with their entities put back. -/
def read? (text : String) : Option (String × String) :=
  let first := text.toList.drop opening.toList.length
  let second := (first.dropWhile (· != '<')).drop middle.toList.length
  let message := String.ofList (Markup.unescape (first.takeWhile (· != '<')))
  let version := String.ofList (Markup.unescape (second.takeWhile (· != '<')))
  if page message version = text then some (message, version) else none

variable {message version text : String}

theorem toList_page (message version : String) :
    (page message version).toList = filled (Markup.escape message.toList) (Markup.escape version.toList) :=
  String.toList_ofList

/-! ### The tags of a page -/

private theorem suffix_intercalate (s : String) {parts : List String} {last : String}
    (h : parts.getLast? = some last) : last.toList <:+ (s.intercalate parts).toList := by
  induction parts with
  | nil => cases h
  | cons part parts ih =>
    cases parts with
    | nil =>
      obtain rfl := Option.some.inj h
      rw [String.intercalate_singleton]
      exact List.suffix_rfl
    | cons part' parts =>
      rw [String.intercalate_cons_cons, String.toList_append]
      exact (ih h).trans (List.suffix_append _ _)

/-- The message stands behind a tag. -/
theorem opening_eq : ∃ before, opening.toList = before ++ ['>'] := by
  have hlast : "        <p>".toList = "        <p".toList ++ ['>'] := by decide
  have hsuffix : "        <p>".toList <:+ opening.toList := suffix_intercalate "\n" rfl
  obtain ⟨before, hbefore⟩ := hsuffix
  rw [hlast, ← List.append_assoc] at hbefore
  exact ⟨_, hbefore.symm⟩

/-- The version stands behind a tag and a word. -/
theorem middle_eq : middle.toList = "</p>\n        <div class=\"build\"".toList ++ '>' :: "Build: ".toList := by decide

/-- Safe texts add no tags to a page. -/
theorem tags_filled {m v : List Char} (hm : Markup.IsSafe m) (hv : Markup.IsSafe v) : Markup.tags (filled m v) =
    Markup.tags opening.toList ++ (Markup.tags middle.toList ++ Markup.tags closing.toList) := by
  have hplain : "Build: ".toList.all Markup.isPlain := by decide
  have hword : Markup.tags "Build: ".toList = [] := by decide
  obtain ⟨before, hbefore⟩ := opening_eq
  have hopening (rest : List Char) :
      Markup.tags (opening.toList ++ rest) = Markup.tags opening.toList ++ Markup.tags rest := by
    rw [hbefore, List.append_assoc, List.singleton_append]
    exact Markup.tags_append before rest
  have hmiddle (rest : List Char) :
      Markup.tags (middle.toList ++ (v ++ rest)) = Markup.tags middle.toList ++ Markup.tags rest := by
    rw [middle_eq, List.append_assoc, List.cons_append, ← List.append_assoc "Build: ".toList, Markup.tags_append,
      Markup.tags_append_of_safe (hv.append_plain hplain), Markup.tags_append _ "Build: ".toList, hword,
      List.append_nil]
  unfold filled
  rw [List.append_assoc, List.append_assoc, List.append_assoc, hopening, Markup.tags_append_of_safe hm, hmiddle]

/-! ### The texts of a page -/

private theorem takeWhile_safe {cs : List Char} (h : Markup.IsSafe cs) (rest : List Char) :
    (cs ++ '<' :: rest).takeWhile (· != '<') = cs := by
  have hcs : ∀ c ∈ cs, (c != '<') = true := fun c hc => by simpa using (h.ne_special c hc).1
  rw [List.takeWhile_append_of_pos hcs, List.takeWhile_cons_of_neg (by simp), List.append_nil]

private theorem dropWhile_safe {cs : List Char} (h : Markup.IsSafe cs) (rest : List Char) :
    (cs ++ '<' :: rest).dropWhile (· != '<') = '<' :: rest := by
  have hcs : ∀ c ∈ cs, (c != '<') = true := fun c hc => by simpa using (h.ne_special c hc).1
  rw [List.dropWhile_append_of_pos hcs, List.dropWhile_cons_of_neg (by simp)]

theorem read?_page (message version : String) : read? (page message version) = some (message, version) := by
  have hmiddle : middle.toList = '<' :: middle.toList.tail := by decide
  have hclosing : closing.toList = '<' :: closing.toList.tail := by decide
  have hm := Markup.isSafe_escape message.toList
  have hv := Markup.isSafe_escape version.toList
  have hfirst : (page message version).toList.drop opening.toList.length = Markup.escape message.toList ++
      '<' :: (middle.toList.tail ++ (Markup.escape version.toList ++ closing.toList)) := by
    rw [toList_page, ← List.cons_append, ← hmiddle]
    simp only [filled, List.append_assoc, List.drop_left]
  have hsecond : ('<' :: (middle.toList.tail ++ (Markup.escape version.toList ++ closing.toList))).drop
      middle.toList.length = Markup.escape version.toList ++ '<' :: closing.toList.tail := by
    rw [← List.cons_append, ← hmiddle, List.drop_left, ← hclosing]
  unfold read?
  simp only [hfirst, takeWhile_safe hm, dropWhile_safe hm, hsecond, takeWhile_safe hv, Markup.unescape_escape,
    String.ofList_toList, if_true]

theorem read?_eq_some_iff : read? text = some (message, version) ↔ page message version = text := by
  constructor
  · intro h
    unfold read? at h
    dsimp only at h
    split at h
    · rename_i hpage
      obtain ⟨rfl, rfl⟩ := Prod.mk.inj (Option.some.inj h)
      exact hpage
    · cases h
  · rintro rfl
    exact read?_page message version

theorem page_eq_iff {m v : String} : page m v = page message version ↔ m = message ∧ v = version := by
  rw [← read?_eq_some_iff, read?_page, Option.some_inj, Prod.mk.injEq, eq_comm, eq_comm (a := version)]

/-- Any message and any version are shown on the empty page, each as a safe text that one pass turns back into it.  The
page has the tags of the empty page, and both texts can be read off it, so no other texts have this page. -/
theorem page_exact (message version : String) :
    let shown := fun text : String => Markup.escape text.toList
    (page "" "").toList = filled [] [] ∧ (page message version).toList = filled (shown message) (shown version) ∧
      (∀ text, Markup.IsSafe (shown text) ∧ Markup.unescape (shown text) = text.toList) ∧
      Markup.tags (page message version).toList = Markup.tags (page "" "").toList ∧
      (∀ text, read? text = some (message, version) ↔ text = page message version) ∧
      ∀ m v, page m v = page message version ↔ m = message ∧ v = version := by
  intro shown
  have hsafe (text : String) : Markup.IsSafe (shown text) := Markup.isSafe_escape text.toList
  have htags (m v : String) : Markup.tags (page m v).toList =
      Markup.tags opening.toList ++ (Markup.tags middle.toList ++ Markup.tags closing.toList) := by
    rw [toList_page]
    exact tags_filled (hsafe m) (hsafe v)
  refine ⟨toList_page "" "", toList_page message version, ?_, ?_, ?_, fun m v => page_eq_iff⟩
  · intro text
    exact ⟨hsafe text, Markup.unescape_escape text.toList⟩
  · rw [htags, htags]
  · intro text
    rw [read?_eq_some_iff, eq_comm]

/-! ### The URL of a page -/

/-- The URL of a page is a fixed beginning and then letters of the Base64 alphabet, filled up with `=` to groups of
four.  They spell the bytes of the page, and so the page, and no other texts have this URL. -/
theorem url_exact (message version : String) :
    let bytes := Utf8.ofString (page message version)
    ∃ letters padding, url message version =
        "data:text/html;charset=utf-8;base64," ++ String.ofList (letters ++ padding) ∧
      (∀ c ∈ letters, c ∈ Base64.alphabet) ∧ padding = List.replicate ((3 - bytes.length % 3) % 3) '=' ∧
      (letters ++ padding).length = 4 * ((bytes.length + 2) / 3) ∧
      Base64.decode? (letters ++ padding) = some bytes ∧ Utf8.toString? bytes = some (page message version) ∧
      ∀ m v, url m v = url message version ↔ m = message ∧ v = version := by
  intro bytes
  obtain ⟨letters, hletters, hencode⟩ := Base64.encode_eq bytes
  have hbytes (m v : String) : Utf8.toString? (Utf8.ofString (page m v)) = some (page m v) := by
    rw [Utf8.toString?, Utf8.decode?_ofString, Option.map_some, String.ofList_toList]
  refine ⟨letters, _, ?_, hletters, rfl, ?_, ?_, hbytes message version, ?_⟩
  · rw [← hencode]
    rfl
  · rw [← hencode, Base64.length_encode]
  · rw [← hencode, Base64.decode?_encode]
  · intro m v
    rw [← page_eq_iff]
    constructor
    · intro h
      have htext : Base64.encode (Utf8.ofString (page m v)) = Base64.encode bytes :=
        String.ofList_inj.1 ((String.append_right_inj scheme).1 h)
      have hsame := congrArg Utf8.toString? (Base64.encode_injective htext)
      rw [hbytes, hbytes] at hsame
      exact Option.some.inj hsame
    · intro h
      unfold url
      rw [h]

end AppLauncher.Window.ErrorPage
