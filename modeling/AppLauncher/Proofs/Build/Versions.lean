import AppLauncher.Build.Version
import AppLauncher.Proofs.Text.Characters

/-!
# Both packages get the same versions

The launcher passes over blank replies of git and reads the number of commits, while the desktop program takes replies
as they are.  Where no successful reply is blank and the number of commits is written as such numbers are (`IsProper`),
this makes no difference, whatever else git does (`filled?_eq`, `count_eq`).  Then the versions of both differ only in
the mark that the launcher puts on changed files (`versions_agree`).  The builds write the same lines about them, up to
that mark (`versionLines_agree`), also where each package goes by a version of its own, unless that is what they fall
back on (`output_agree`).
-/

namespace AppLauncher.Build

open AppLauncher.Text

/-- A reply that is successful, spells a text and has nothing but blanks in it. -/
def Reply.IsBlank (r : Reply) : Prop :=
  ∃ output cs, r = .ended true output ∧ Utf8.decode? output = some cs ∧ ∀ c ∈ cs, isBlank c = true

/-- No answer that is read is blank, and a number of commits that was printed is the decimal text of a number of 32
bits. -/
structure Git.IsProper (g : Git) : Prop where
  tag : ¬ g.tag.IsBlank
  count : ∀ cs, g.count.text? = some cs → ∃ n, n < wordCount 32 ∧ cs = decimal n
  commit : ¬ g.commit.IsBlank

section

variable {r : Reply} {g : Git} {p : Package} {package file : Option String}

theorem Reply.text?_eq_some_nil_iff : r.text? = some [] ↔ r.IsBlank := by
  unfold IsBlank
  cases r with
  | unavailable => simp [text?]
  | ended success output =>
    cases success with
    | false => simp [text?]
    | true => simp [text?, trim_eq_nil_iff]

theorem Reply.filled?_of_text? (h : r.text? ≠ some []) : r.filled? = r.text? := by
  unfold filled?
  split
  · rename_i hnil
    exact absurd hnil h
  · rfl

/-- Where a reply is not blank, nothing is passed over. -/
theorem Reply.filled?_eq (h : ¬ r.IsBlank) : r.filled? = r.text? :=
  filled?_of_text? fun hnil => h (text?_eq_some_nil_iff.1 hnil)

/-- A number of commits that was read is written again as it was printed, and none is no commits. -/
theorem Git.IsProper.count_eq (h : g.IsProper) :
    decimal ((g.count.filled?.bind (unsigned? (wordCount 32))).getD 0) = g.count.text?.getD "0".toList := by
  cases hcount : g.count.text? with
  | none =>
    rw [Reply.filled?_of_text? (by simp [hcount]), hcount]
    rfl
  | some cs =>
    obtain ⟨n, hn, rfl⟩ := h.count cs hcount
    have hne : g.count.text? ≠ some [] := by
      rw [hcount]
      exact fun hnil => decimal_ne_nil n (Option.some.inj hnil)
    rw [Reply.filled?_of_text? hne, hcount, Option.bind_some, unsigned?_decimal hn, Option.getD_some, Option.getD_some]

/-- What the launcher says of files that are not as committed. -/
def mark (g : Git) : String := if g.unchanged.isFailure then "-dirty" else ""

/-- What is added to the name of a commit ends the text about the build, and is nowhere else. -/
theorem counted_added (base count commit : List Char) (added : String) :
    Versions.counted base count commit added.toList =
      { Versions.counted base count commit [] with
        build := (Versions.counted base count commit []).build ++ added } := by
  simp [Versions.counted, String.append_assoc]

theorem launcherVersions_eq (h : g.IsProper) (own : String) :
    launcherVersions own g = { desktopVersions own g with build := (desktopVersions own g).build ++ mark g } := by
  have hmark : (if g.unchanged.isFailure then "-dirty".toList else []) = (mark g).toList := by
    unfold mark
    split <;> rfl
  dsimp only [launcherVersions, desktopVersions]
  rw [Reply.filled?_eq h.tag, Reply.filled?_eq h.commit, h.count_eq, hmark, counted_added]

/-- What the launcher adds to the text about the build. -/
def added (package file : Option String) (g : Git) : String :=
  if ¬ (package.isSome ∧ file.isSome) ∧ g.unchanged.isFailure then "-dirty" else ""

theorem versions_launcher (h : g.IsProper) (own : String) (package file : Option String) :
    versions .launcher own package file g =
      { versions .desktop own package file g with
        build := (versions .desktop own package file g).build ++ added package file g } := by
  cases package with
  | none => simpa [versions, added, mark] using launcherVersions_eq h own
  | some a =>
    cases file with
    | none => simpa [versions, added, mark] using launcherVersions_eq h own
    | some b => simp [versions, added]

end

/-- Given the same version of their own and the same variables, and whatever git does that is proper, both packages get
the same versions, except that the launcher marks files that are not as committed, unless both variables are there.
A git that is missing or fails, or that prints bytes which are no text, is proper. -/
theorem versions_agree (own : String) (package file : Option String) (g : Git) (h : g.IsProper) :
    let launcher := versions .launcher own package file g
    let desktop := versions .desktop own package file g
    launcher.package = desktop.package ∧ launcher.file = desktop.file ∧
      launcher.build = desktop.build ++
        (if ¬ (package.isSome ∧ file.isSome) ∧ g.unchanged.isFailure then "-dirty" else "") := by
  intro launcher desktop
  have heq : launcher = { desktop with build := desktop.build ++ added package file g } :=
    versions_launcher h own package file
  rw [heq]
  exact ⟨rfl, rfl, rfl⟩

/-- The tag and the count are read, the name of the commit is no text, and the files are changed; one of the two
variables alone does not matter. -/
theorem versions_agree_changed :
    let g : Git := ⟨.ended true (Utf8.ofString " v2.1.0\n"), .ended true (Utf8.ofString "17\n"),
      .ended true [0xFF], .ended false []⟩
    let launcher := versions .launcher "0.9.0" (some "7.0") none g
    g.IsProper ∧ launcher.package = "2.1.0" ∧ launcher.file = "2.1.0.17" ∧
      (versions .desktop "0.9.0" (some "7.0") none g).file = launcher.file ∧
      launcher.build = (versions .desktop "0.9.0" (some "7.0") none g).build ++ "-dirty" := by
  intro g launcher
  have hproper : g.IsProper := by
    refine ⟨?_, ?_, ?_⟩
    · rw [← Reply.text?_eq_some_nil_iff]
      decide
    · intro cs hcs
      exact ⟨17, by decide, Option.some.inj (hcs.symm.trans (by decide))⟩
    · rw [← Reply.text?_eq_some_nil_iff]
      decide
  obtain ⟨hpackage, hfile, hbuild⟩ := versions_agree "0.9.0" (some "7.0") none g hproper
  exact ⟨hproper, hpackage.trans (by decide), hfile.trans (by decide), hfile.symm, hbuild⟩

/-! ### What the builds write -/

section

variable {g : Git} {package file : Option String}

/-- The lines about the versions are the same, up to what the launcher adds to the last one. -/
theorem versionLines_agree (h : g.IsProper) (own : String) (package file : Option String) :
    ∃ packageLine fileLine buildLine,
      versionLines (versions .desktop own package file g) = [packageLine, fileLine, buildLine] ∧
      versionLines (versions .launcher own package file g) =
        [packageLine, fileLine, buildLine ++ added package file g] := by
  refine ⟨_, _, _, rfl, ?_⟩
  rw [versions_launcher h]
  simp [versionLines, String.append_assoc]

/-- Where both variables are there, or git has a tag, a package does not fall back on its own version. -/
theorem versions_desktop_own (hown : (package.isSome ∧ file.isSome) ∨ g.tag.text?.isSome) (own own' : String) :
    versions .desktop own package file g = versions .desktop own' package file g := by
  unfold versions
  split
  · rfl
  · rename_i hnot
    have htag : g.tag.text?.isSome := by
      refine hown.resolve_left fun ⟨hpackage, hfile⟩ => ?_
      obtain ⟨a, rfl⟩ := Option.isSome_iff_exists.1 hpackage
      obtain ⟨b, rfl⟩ := Option.isSome_iff_exists.1 hfile
      exact hnot a b rfl rfl
    obtain ⟨cs, hcs⟩ := Option.isSome_iff_exists.1 htag
    simp [desktopVersions, hcs]

theorem linesOf_append (ls ls' : List String) : linesOf (ls ++ ls') = linesOf ls ++ linesOf ls' := List.flatMap_append

/-- The builds of both packages write the same lines, except that the launcher's marks changed files, passes on what
comparing them wrote, and says what it is built again for. -/
theorem output_agree (h : g.IsProper) (hown : (package.isSome ∧ file.isSome) ∨ g.tag.text?.isSome) :
    ∃ packageLine fileLine buildLine,
      output .desktop package file g = linesOf (watchedLines ++ [packageLine, fileLine, buildLine]) ∧
      output .launcher package file g = linesOf watchedLines ++ compared .launcher package file g ++
        linesOf ([packageLine, fileLine, buildLine ++ added package file g] ++ closingLines .launcher) := by
  obtain ⟨packageLine, fileLine, buildLine, hdesktop, hlauncher⟩ :=
    versionLines_agree h Package.launcher.ownVersion package file
  rw [versions_desktop_own hown _ Package.desktop.ownVersion] at hdesktop
  refine ⟨packageLine, fileLine, buildLine, ?_, ?_⟩
  · have hcompared : compared .desktop package file g = [] := rfl
    rw [output, hcompared, hdesktop, linesOf_append, List.append_nil]
    exact List.append_nil _
  · rw [output, hlauncher, linesOf_append, List.append_assoc]

end

end AppLauncher.Build
