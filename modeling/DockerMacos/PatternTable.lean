import Mathlib.Data.List.ReduceOption
import DockerMacos.PanicPatterns

/-!
# The Pattern Table

The fields of a pattern file are separated by one tab each (`tests/patterns/README.md`).
`load_patterns` reads the lines with `IFS="$TAB" read -r cat sev rgx desc`. To the shell a tab
is white space: it takes any number of them for one separator, and drops those at the ends of
the line. A last line without newline it reads too, but then leaves the loop.

## Two readings of a line

`patternRow` is the row that a line stands for by the format: its first three fields, and the
rest of it. `loadLine` is what the loop appends for it. The two differ where a field is empty,
as the shell then puts the next one in its place, and where a description has tabs at its ends.

## Main definitions

* `patternTable`: the rows of a file, line by line.
* `Loadable`: a line that the shell divides where the format does.

## Main results

* `loadPatterns_eq`: the loop appends what each line appends.
* `loadLine_eq_iff`: which lines are read as they are written.
* `patternTable_iff`: which files are.
-/

namespace DockerMacos

deriving instance DecidableEq for LoadedPattern

/-- The row that a line stands for: its first three fields and the rest of it. A comment, and a
line without category or regex, stands for none. -/
def patternRow (line : List Char) : Option LoadedPattern :=
  let (cat, rest) := cutField '\t' line
  let (sev, rest) := cutField '\t' rest
  let (rgx, desc) := cutField '\t' rest
  if line.head? = some '#' ∨ cat = [] ∨ rgx = [] then none else some ⟨cat, sev, rgx, desc⟩

/-- The rows of a file, line by line. -/
def patternTable (patterns : List Char) : List (Option LoadedPattern) :=
  (patterns.splitOn '\n').map patternRow

/-- What the loop of `load_patterns` appends for a line. -/
def loadLine (line : List Char) : Option LoadedPattern :=
  if (readPattern line).cat = [] ∨ (readPattern line).cat.head? = some '#' ∨
      (readPattern line).rgx = [] then none
  else some (readPattern line)

/-- What `load_patterns` appends, line by line; nothing for what follows the last newline. -/
def loadedTable (patterns : List Char) : List (Option LoadedPattern) :=
  (terminated '\n' patterns).map loadLine ++ [none]

/-- A line that the shell divides where the format does. A row has a severity, and a description
without a tab at its ends. Every other line has fewer than three fields that are not empty,
or the first of them makes it a comment. -/
def Loadable (line : List Char) : Prop :=
  match patternRow line with
  | some r => r.sev ≠ [] ∧ r.desc.head? ≠ some '\t' ∧ r.desc.getLast? ≠ some '\t'
  | none => (words '\t' line).length < 3 ∨ ((words '\t' line).headD []).head? = some '#'

/-! ### Lines -/

section Lines

variable {line : List Char}

/-- The loop appends what its lines append. -/
theorem loadPatterns_eq (patterns : List Char) :
    loadPatterns patterns = (loadedTable patterns).reduceOption := by
  rw [loadPatterns, loadedTable, List.reduceOption_append, List.reduceOption_singleton,
    Option.toList_none, List.append_nil, List.reduceOption, List.filterMap_map,
    ← List.filterMap_eq_filter, List.filterMap_map]
  refine List.filterMap_congr fun line _ => ?_
  simp only [Function.comp_apply, id, loadLine, Option.guard]
  by_cases hcat : (readPattern line).cat = [] <;>
    by_cases hhead : (readPattern line).cat.head? = some '#' <;>
    by_cases hrgx : (readPattern line).rgx = [] <;> simp [hcat, hhead, hrgx]

/-- The shell takes the first three fields that are not empty. -/
theorem readPattern_words (line : List Char) :
    (readPattern line).cat = (words '\t' line).headD [] ∧
      (readPattern line).sev = (words '\t' line).tail.headD [] ∧
      (readPattern line).rgx = (words '\t' line).tail.tail.headD [] := by
  obtain ⟨hcat, hrest⟩ := shellField_words '\t' line
  obtain ⟨hsev, hrest'⟩ := shellField_words '\t' (shellField '\t' line).2
  obtain ⟨hrgx, -⟩ := shellField_words '\t' (shellField '\t' (shellField '\t' line).2).2
  rw [hrest] at hsev hrest'
  rw [hrest'] at hrgx
  exact ⟨hcat, hsev, hrgx⟩

/-- A field that is not empty does not make the first word empty. -/
theorem words_ne_nil {w : List Char} (hw : w ∈ words '\t' line) : w ≠ [] := by
  rintro rfl
  simpa using (List.mem_filter.mp hw).2

/-- The loop passes over a line with fewer than three words, and over comments. -/
theorem loadLine_eq_none_iff :
    loadLine line = none ↔
      (words '\t' line).length < 3 ∨ ((words '\t' line).headD []).head? = some '#' := by
  obtain ⟨hcat, -, hrgx⟩ := readPattern_words line
  rw [loadLine, hcat, hrgx]
  rcases hwords : words '\t' line with _ | ⟨w, _ | ⟨w', _ | ⟨w'', ws⟩⟩⟩
  · simp
  · simp
  · simp
  · have hw : w ≠ [] := words_ne_nil (hwords ▸ List.mem_cons_self)
    have hw'' : w'' ≠ [] := words_ne_nil (show w'' ∈ words '\t' line by simp [hwords])
    have hlen : ¬ws.length + 1 + 1 + 1 < 3 := by omega
    simp [hw, hw'', hlen]

/-- Of a row with a severity the shell finds the fields, and takes the tabs off the ends of the
description. -/
theorem readPattern_fields {cat sev rgx rest rest' desc : List Char}
    (hcat : cutField '\t' line = (cat, rest)) (hsev : cutField '\t' rest = (sev, rest'))
    (hrgx : cutField '\t' rest' = (rgx, desc)) (hne : cat ≠ []) (hne' : sev ≠ [])
    (hne'' : rgx ≠ []) :
    readPattern line = ⟨cat, sev, rgx,
      ((desc.dropWhile (· = '\t')).reverse.dropWhile (· = '\t')).reverse⟩ := by
  have hfirst := shellField_cutField (show (cutField '\t' line).1 ≠ [] by rwa [hcat])
  have hsecond := shellField_cutField (show (cutField '\t' rest).1 ≠ [] by rwa [hsev])
  have hthird := shellField_cutField (show (cutField '\t' rest').1 ≠ [] by rwa [hrgx])
  have hdesc : (rest'.dropWhile fun c => decide (c ≠ '\t')).dropWhile (· = '\t') =
      desc.dropWhile (· = '\t') := by
    rcases dropWhile_cutField '\t' rest' with ⟨hnil, hrest⟩ | hcons
    · rw [hnil, ← hrest, hrgx]
    · rw [hcons, hrgx]
      rfl
  simp only [readPattern, hfirst, shellField_dropWhile, hcat, hsecond, hsev, hthird, hrgx, hdesc]

/-- **A line** is read as it is written exactly when the shell divides it where the format
does. -/
theorem loadLine_eq_iff (line : List Char) : loadLine line = patternRow line ↔ Loadable line := by
  rcases hcat : cutField '\t' line with ⟨cat, rest⟩
  rcases hsev : cutField '\t' rest with ⟨sev, rest'⟩
  rcases hrgx : cutField '\t' rest' with ⟨rgx, desc⟩
  have hrow : patternRow line = if line.head? = some '#' ∨ cat = [] ∨ rgx = [] then none
      else some ⟨cat, sev, rgx, desc⟩ := by
    simp only [patternRow, hcat, hsev, hrgx]
  rw [Loadable, hrow]
  split
  · exact loadLine_eq_none_iff
  · next hnone =>
    simp only [not_or] at hnone
    obtain ⟨hcomment, hne, hne''⟩ := hnone
    by_cases hne' : sev = []
    · -- the regex is taken for the severity
      refine iff_of_false (fun hload => ?_) fun h => h.1 hne'
      have hwords := words_cutField '\t' line
      rw [hcat, if_neg hne, words_cutField '\t' rest, hsev, if_pos hne',
        words_cutField '\t' rest', hrgx, if_neg hne''] at hwords
      rw [loadLine] at hload
      split at hload
      · cases hload
      · have hread := (readPattern_words line).2.1
        rw [Option.some.inj hload, hwords] at hread
        exact hne'' (hread.symm.trans hne')
    · have hread := readPattern_fields hcat hsev hrgx hne hne' hne''
      have hhead : cat.head? ≠ some '#' := by
        intro hhash
        refine hcomment ?_
        obtain ⟨c, cs, rfl⟩ := List.exists_cons_of_ne_nil hne
        obtain ⟨l, hl⟩ : ∃ l, line = (c :: cs) ++ l := by
          refine ⟨line.dropWhile fun c => decide (c ≠ '\t'), ?_⟩
          have htake : (cutField '\t' line).1 = c :: cs := by rw [hcat]
          rw [← htake]
          exact List.takeWhile_append_dropWhile.symm
        rw [hl]
        exact hhash
      have hload : loadLine line = some (readPattern line) := by
        rw [loadLine, if_neg]
        rw [hread]
        simp [hne, hhead, hne'']
      rw [hload, hread, Option.some_inj, LoadedPattern.mk.injEq]
      simp only [true_and]
      rw [trim_eq_self_iff]
      exact ⟨fun h => ⟨hne', h⟩, fun h => h.2⟩

end Lines

/-! ### Files -/

/-- **The pattern table.** Every line of a file is loaded as it is written exactly when all lines
are loadable and what follows the last newline is no row. -/
theorem patternTable_iff (patterns : List Char) :
    loadedTable patterns = patternTable patterns ↔
      (∀ line ∈ terminated '\n' patterns, Loadable line) ∧
        patternRow ((patterns.splitOn '\n').getLastD []) = none := by
  have hsplit : patterns.splitOn '\n' =
      terminated '\n' patterns ++ [(patterns.splitOn '\n').getLastD []] := by
    have hne := List.splitOn_ne_nil '\n' patterns
    rw [terminated, List.getLastD_eq_getLast?, List.getLast?_eq_getLast_of_ne_nil hne,
      Option.getD_some, List.dropLast_concat_getLast hne]
  rw [loadedTable, patternTable, hsplit, List.map_append, List.map_singleton, ← hsplit]
  constructor
  · intro h
    obtain ⟨hlines, hlast⟩ := List.append_inj' h rfl
    rw [List.map_inj_left] at hlines
    refine ⟨fun line hline => (loadLine_eq_iff line).mp (hlines line hline), ?_⟩
    exact (List.singleton_inj.mp hlast).symm
  · rintro ⟨hlines, hlast⟩
    rw [hlast, List.map_congr_left fun line hline => (loadLine_eq_iff line).mpr (hlines line hline)]

/-- In a row without severity the shell takes the regex for it, and the description for the
regex; and it does not come to a last row without newline. -/
theorem loadPatterns_shifts :
    loadPatterns "panic\t\tpanicked\tkernel panic\n".toList =
        [⟨"panic".toList, "panicked".toList, "kernel panic".toList, []⟩] ∧
      loadPatterns "panic\t\tpanicked\tkernel panic\n".toList ≠
        (patternTable "panic\t\tpanicked\tkernel panic\n".toList).reduceOption ∧
      loadPatterns "panic\tfatal\tpanicked\tkernel panic".toList = [] ∧
      loadPatterns "panic\tfatal\tpanicked\tkernel panic".toList ≠
        (patternTable "panic\tfatal\tpanicked\tkernel panic".toList).reduceOption := by
  decide +kernel

end DockerMacos
