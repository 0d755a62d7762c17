import Mathlib.Algebra.Ring.Nat
import Mathlib.Data.List.Infix
import DockerMacos.DelimitedText

/-!
# The Panic Detectors

`panic.patterns` lists regexes with a category and a severity (`tests/patterns/README.md`). The
capture script joins the regexes of the fatal rows to one alternation and stops when a log
matches it (`tests/capture-boot-log.sh`). The analyzer loads the rows with `read`, counts the
matches of each and notes a panic for a fatal row of certain categories
(`tests/analyze-boot-log.sh`).

## Two readers of one file

`awk` divides a line at every tab and `read` at every run of tabs, and the two do not take the
same lines for comments. A `PatternFile` is given by its rows and the other lines, from which its
text is made.

## Grep

Which regexes are well-formed and what they match is a parameter (`Grep`); what is used of it is
that a bar between two regexes stands for either of them. An operand that begins with a hyphen
is taken for options, and what comes of it is left open.

## Main results

* `analyzerPanic_iff`, `capturePanic_iff`: on which files the two detectors fire.
* `detectors_agree_iff`: when both fire exactly if a fatal row matches.
-/

namespace DockerMacos

/-- `grep -E`: which regexes are well-formed, and whether one of them matches a line. A `|`
between two regexes stands for either of them. -/
structure Grep where
  WellFormed : List Char → Prop
  search : List Char → List Char → Bool
  wellFormed_alternation : ∀ {r s}, WellFormed r → WellFormed s → WellFormed (r ++ '|' :: s)
  search_alternation : ∀ {r s} line, WellFormed r → WellFormed s →
    search (r ++ '|' :: s) line = (search r line || search s line)

/-- `[[:space:]]` -/
def isSpace (c : Char) : Bool := c ∈ [' ', '\t', '\n', '\x0b', '\x0c', '\r']

/-! ### The format -/

inductive Severity
  | info
  | warn
  | error
  | fatal
  deriving DecidableEq

def Severity.text : Severity → List Char
  | .info => "info".toList
  | .warn => "warn".toList
  | .error => "error".toList
  | .fatal => "fatal".toList

/-- A row. The category is free-form, except that a line beginning with `#` is a comment. -/
structure PatternRow (g : Grep) where
  category : List Char
  severity : Severity
  regex : List Char
  description : List Char
  category_head : category.head? ≠ some '#'
  category_tab : '\t' ∉ category
  category_line : '\n' ∉ category
  wellFormed : g.WellFormed regex
  regex_ne : regex ≠ []
  regex_tab : '\t' ∉ regex
  regex_line : '\n' ∉ regex
  description_line : '\n' ∉ description

/-- A line of a pattern file. -/
inductive PatternEntry (g : Grep)
  | comment (text : List Char) (line : '\n' ∉ text)
  | blank (text : List Char) (space : ∀ c ∈ text, isSpace c) (line : '\n' ∉ text)
  | row (r : PatternRow g)

variable {g : Grep}

def PatternRow.line (r : PatternRow g) : List Char :=
  r.category ++ '\t' :: (r.severity.text ++ '\t' :: (r.regex ++ '\t' :: r.description))

def PatternEntry.line : PatternEntry g → List Char
  | .comment text _ => '#' :: text
  | .blank text _ _ => text
  | .row r => r.line

/-- A pattern file: the lines that a newline ends, and a last line without one. -/
structure PatternFile (g : Grep) where
  entries : List (PatternEntry g)
  rest : Option (PatternEntry g)

namespace PatternFile

def text (p : PatternFile g) : List Char :=
  delimited '\n' (p.entries.map PatternEntry.line) ((p.rest.map PatternEntry.line).getD [])

def allEntries (p : PatternFile g) : List (PatternEntry g) := p.entries ++ p.rest.toList

end PatternFile

/-! ### The capture script -/

/-- What the `awk` program passes over: comments and blank lines. -/
def awkSkips (line : List Char) : Bool :=
  (line.dropWhile isSpace).head? = some '#' || line.all isSpace

/-- `$n` with the tab as field separator. -/
def awkField (line : List Char) (n : ℕ) : List Char := (line.splitOn '\t')[n - 1]?.getD []

def addAlternative (out regex : List Char) : List Char :=
  if out = [] then regex else out ++ '|' :: regex

/-- What the `awk` program does with a line. -/
def awkStep (out line : List Char) : List Char :=
  if awkSkips line then out
  else if awkField line 2 = "fatal".toList then addAlternative out (awkField line 3)
  else out

/-- `PANIC_REGEX` -/
def panicRegex (patterns : List Char) : List Char := (records '\n' patterns).foldl awkStep []

/-- `HIT`: the first line that matches. An operand that begins with a hyphen `grep` takes for
options; what it prints then is up to `options`. -/
def captureHit (g : Grep) (options : List Char → List Char → List Char)
    (regex log : List Char) : List Char :=
  if regex.head? = some '-' then options regex log
  else ((records '\n' log).find? (g.search regex)).getD []

/-- The panic trigger. A serial log that is empty mirrors the docker log. -/
def capturePanic (g : Grep) (options : List Char → List Char → List Char)
    (patterns serial docker : List Char) : Bool :=
  let regex := panicRegex patterns
  let serial := if serial = [] then docker else serial
  regex ≠ [] && [serial, docker].any fun f => f ≠ [] && captureHit g options regex f ≠ []

/-! ### The analyzer -/

/-- The fields of a line as `read` sets them. -/
structure LoadedPattern where
  cat : List Char
  sev : List Char
  rgx : List Char
  desc : List Char

/-- `IFS="$TAB" read -r cat sev rgx desc` -/
def readPattern (line : List Char) : LoadedPattern :=
  let (cat, line) := shellField '\t' line
  let (sev, line) := shellField '\t' line
  let (rgx, line) := shellField '\t' line
  ⟨cat, sev, rgx, ((line.dropWhile (· = '\t')).reverse.dropWhile (· = '\t')).reverse⟩

/-- `load_patterns` -/
def loadPatterns (patterns : List Char) : List LoadedPattern :=
  ((terminated '\n' patterns).map readPattern).filter fun p =>
    p.cat ≠ [] && p.cat.head? ≠ some '#' && p.rgx ≠ []

/-- `count_matches` -/
def countMatches (g : Grep) (rgx : List Char) (logs : List (List Char)) : ℕ :=
  (logs.map fun f => (records '\n' f).countP (g.search rgx)).sum

/-- The categories in which a fatal row means a panic. -/
def panicCategories : List (List Char) :=
  ["panic".toList, "kext-fail".toList, "apple-gfx".toList, "qemu".toList, "memory".toList]

/-- `PANIC_FOUND` after the scan. Logs that are empty are not scanned. -/
def analyzerPanic (g : Grep) (patterns serial docker : List Char) : Bool :=
  let logs := [serial, docker].filter fun f => f ≠ []
  (loadPatterns patterns).any fun p =>
    0 < countMatches g p.rgx logs && (p.cat ∈ panicCategories && p.sev = "fatal".toList)

/-! ### What the detectors are for -/

/-- The regex of the row matches a line of a log. -/
def PatternRow.Matches (r : PatternRow g) (serial docker : List Char) : Prop :=
  ∃ f ∈ [serial, docker], ∃ line ∈ records '\n' f, g.search r.regex line

/-- A fatal row matches. -/
def PatternFile.Panics (p : PatternFile g) (serial docker : List Char) : Prop :=
  ∃ r, .row r ∈ p.allEntries ∧ r.severity = .fatal ∧ r.Matches serial docker

/-- Both detectors fire exactly if a fatal row matches. -/
def PatternFile.Agree (p : PatternFile g) (options : List Char → List Char → List Char)
    (serial docker : List Char) : Prop :=
  (capturePanic g options p.text serial docker ↔ p.Panics serial docker) ∧
    (analyzerPanic g p.text serial docker ↔ p.Panics serial docker)

/-- `awk` takes the row for a comment. -/
def PatternRow.hidden (r : PatternRow g) : Bool :=
  (r.category.dropWhile isSpace).head? = some '#'

/-- The regex when `awk` joins the row. -/
def PatternEntry.joined : PatternEntry g → Option (List Char)
  | .row r => if r.severity = .fatal ∧ r.hidden = false then some r.regex else none
  | _ => none

namespace PatternFile

/-- The regexes that `awk` joins. -/
def joined (p : PatternFile g) : List (List Char) := p.allEntries.filterMap PatternEntry.joined

/-- The first line of a log that one of the joined regexes matches. -/
def firstMatch (p : PatternFile g) (f : List Char) : Option (List Char) :=
  (records '\n' f).find? fun line => p.joined.any fun regex => g.search regex line

/-- When there is something in the logs, the first regex that is joined does not begin with a
hyphen; and when a fatal row matches, then one matches that is in one of the categories and
has a newline, and in one of the logs the first line that matches is not empty. -/
def Detectable (p : PatternFile g) (serial docker : List Char) : Prop :=
  (serial = [] ∧ docker = []) ∨
    (p.joined.head?.bind List.head? ≠ some '-' ∧ (p.Panics serial docker →
      (∃ r, .row r ∈ p.entries ∧ r.severity = .fatal ∧ r.category ∈ panicCategories ∧
        r.Matches serial docker) ∧
      ∃ f ∈ [serial, docker], ∃ line, p.firstMatch f = some line ∧ line ≠ []))

end PatternFile

/-! ### Lines -/

section Lines

variable {s : Severity} {r : PatternRow g}

/-- A severity has a text. -/
theorem Severity.text_ne : s.text ≠ [] := by
  cases s <;> decide

/-- It is one field of a row. -/
theorem Severity.text_tab : '\t' ∉ s.text := by
  cases s <;> decide

/-- It is on one line. -/
theorem Severity.text_line : '\n' ∉ s.text := by
  cases s <;> decide

/-- Nothing in it is skipped or begins a comment. -/
theorem Severity.text_space : ∀ c ∈ s.text, isSpace c = false ∧ c ≠ '#' := by
  have hall : s.text.all (fun c => !isSpace c && c != '#') = true := by
    cases s <;> rfl
  simpa only [List.all_eq_true, Bool.and_eq_true, Bool.not_eq_true', bne_iff_ne] using hall

/-- A severity that is read as a category is none of the panic categories. -/
theorem Severity.text_category : s.text ∉ panicCategories := by
  cases s <;> decide

/-- The test of the scripts. -/
theorem Severity.text_fatal : s.text = "fatal".toList ↔ s = .fatal := by
  cases s <;> decide

/-- A row is on one line. -/
theorem PatternRow.line_line : '\n' ∉ r.line := by
  simp [PatternRow.line, r.category_line, Severity.text_line, r.regex_line, r.description_line]

/-- So is a comment or a blank line. -/
theorem PatternEntry.line_line (e : PatternEntry g) : '\n' ∉ e.line := by
  rcases e with ⟨text, hline⟩ | ⟨text, _, hline⟩ | r
  · simpa [PatternEntry.line] using hline
  · exact hline
  · exact PatternRow.line_line

/-- The shell finds the first three fields of a row. -/
theorem readPattern_row (hne : r.category ≠ []) :
    (readPattern r.line).cat = r.category ∧ (readPattern r.line).sev = r.severity.text ∧
      (readPattern r.line).rgx = r.regex := by
  simp [readPattern, PatternRow.line, shellField_word hne r.category_tab, shellField_cons,
    shellField_word Severity.text_ne Severity.text_tab, shellField_word r.regex_ne r.regex_tab]

/-- Without a category the severity is taken for it. -/
theorem readPattern_row_nil (hnil : r.category = []) :
    (readPattern r.line).cat = r.severity.text := by
  simp [readPattern, PatternRow.line, hnil, shellField_cons,
    shellField_word Severity.text_ne Severity.text_tab]

/-- `awk` finds the severity and the regex of a row. -/
theorem awkField_row : awkField r.line 2 = r.severity.text ∧ awkField r.line 3 = r.regex := by
  simp [awkField, PatternRow.line, List.splitOn_append_cons_self_of_not_mem r.category_tab,
    List.splitOn_append_cons_self_of_not_mem Severity.text_tab,
    List.splitOn_append_cons_self_of_not_mem r.regex_tab]

/-- Of the rows, `awk` passes over those it takes for comments. -/
theorem awkSkips_row : awkSkips r.line = r.hidden := by
  obtain ⟨c, cs, hsev⟩ := List.exists_cons_of_ne_nil (Severity.text_ne (s := r.severity))
  obtain ⟨hspace, hhash⟩ := Severity.text_space (s := r.severity) c (by simp [hsev])
  have hall : r.line.all isSpace = false := by
    simp [PatternRow.line, hsev, hspace]
  have htab : isSpace '\t' = true := by decide
  rw [awkSkips, hall, Bool.or_false, PatternRow.hidden, PatternRow.line, List.dropWhile_append]
  by_cases hcat : r.category.dropWhile isSpace = []
  · simp [hcat, hsev, htab, hspace, hhash]
  · obtain ⟨d, ds, hd⟩ := List.exists_cons_of_ne_nil hcat
    simp [hd]

/-- A category that is one of those for a panic is neither empty nor a comment nor blank. -/
theorem category_of_panic {cat : List Char} (h : cat ∈ panicCategories) :
    cat ≠ [] ∧ cat.head? ≠ some '#' ∧ ∃ c ∈ cat, isSpace c = false := by
  simp only [panicCategories, List.mem_cons, List.not_mem_nil, or_false] at h
  rcases h with rfl | rfl | rfl | rfl | rfl <;> simp [isSpace]

/-- What the scan makes of a line: a panic needs a fatal row in one of the categories. -/
theorem readPattern_line (e : PatternEntry g) (hcat : (readPattern e.line).cat ∈ panicCategories)
    (hsev : (readPattern e.line).sev = "fatal".toList) :
    ∃ r, e = .row r ∧ r.severity = .fatal ∧ r.category ∈ panicCategories ∧
      (readPattern e.line).rgx = r.regex := by
  rcases e with ⟨text, hline⟩ | ⟨text, hspace, hline⟩ | r
  · refine absurd ?_ (category_of_panic hcat).2.1
    simp [readPattern, PatternEntry.line, shellField]
  · obtain ⟨c, hc, hcspace⟩ := (category_of_panic hcat).2.2
    have hmem : c ∈ text := by
      refine (List.dropWhile_sublist _).subset ((List.takeWhile_sublist _).subset hc)
    simp [hspace c hmem] at hcspace
  · by_cases hne : r.category = []
    · rw [show (PatternEntry.row r).line = r.line from rfl, readPattern_row_nil hne] at hcat
      exact absurd hcat Severity.text_category
    · obtain ⟨hc, hs, hr⟩ := readPattern_row hne
      exact ⟨r, rfl, Severity.text_fatal.mp (hs.symm.trans hsev), hc ▸ hcat, hr⟩

end Lines

section Analyzer

variable {p : PatternFile g} {serial docker : List Char}

/-- All entries of a file are on lines of their own. -/
theorem PatternFile.entries_line (p : PatternFile g) :
    ∀ l ∈ p.entries.map PatternEntry.line, '\n' ∉ l := by
  intro l hl
  obtain ⟨e, -, rfl⟩ := List.mem_map.mp hl
  exact e.line_line

/-- So is what stands behind the last newline. -/
theorem PatternFile.rest_line (p : PatternFile g) :
    '\n' ∉ (p.rest.map PatternEntry.line).getD [] := by
  obtain _ | e := p.rest
  · simp
  · exact e.line_line

/-- The lines that `read` sees. -/
theorem PatternFile.terminated_text : terminated '\n' p.text = p.entries.map PatternEntry.line :=
  terminated_delimited p.entries_line p.rest_line

/-- The count is positive when a line of a log matches. -/
theorem countMatches_pos {rgx : List Char} {logs : List (List Char)} :
    0 < countMatches g rgx logs ↔ ∃ f ∈ logs, ∃ line ∈ records '\n' f, g.search rgx line := by
  simp [countMatches, List.sum_pos_iff_exists_pos_nat, List.countP_pos_iff]

/-- A log in which a line matches is not empty. -/
theorem PatternRow.matches_iff {r : PatternRow g} :
    r.Matches serial docker ↔
      0 < countMatches g r.regex ([serial, docker].filter fun f => f ≠ []) := by
  rw [countMatches_pos]
  constructor
  · rintro ⟨f, hf, line, hline, hmatch⟩
    refine ⟨f, List.mem_filter.mpr ⟨hf, ?_⟩, line, hline, hmatch⟩
    refine decide_eq_true fun hnil => ?_
    simp [hnil] at hline
  · rintro ⟨f, hf, line, hline, hmatch⟩
    exact ⟨f, List.mem_of_mem_filter hf, line, hline, hmatch⟩

/-- The analyzer fires when a row matches that is fatal, is in one of the categories and has a
newline. -/
theorem analyzerPanic_iff : analyzerPanic g p.text serial docker ↔
    ∃ r, .row r ∈ p.entries ∧ r.severity = .fatal ∧ r.category ∈ panicCategories ∧
      r.Matches serial docker := by
  simp only [analyzerPanic, loadPatterns, PatternFile.terminated_text, List.any_eq_true,
    List.mem_filter, List.map_map, List.mem_map, Bool.and_eq_true, decide_eq_true_eq]
  constructor
  · rintro ⟨q, ⟨⟨e, he, rfl⟩, -⟩, hcount, hcat, hsev⟩
    obtain ⟨r, rfl, hfatal, hlisted, hrgx⟩ := readPattern_line e hcat hsev
    refine ⟨r, he, hfatal, hlisted, PatternRow.matches_iff.mpr ?_⟩
    rw [← hrgx]
    exact hcount
  · rintro ⟨r, hr, hfatal, hlisted, hmatch⟩
    obtain ⟨hne, hhead, -⟩ := category_of_panic hlisted
    obtain ⟨hc, hs, hg⟩ := readPattern_row hne
    refine ⟨readPattern r.line, ⟨⟨_, hr, rfl⟩, ?_⟩, ?_, ?_, ?_⟩
    · simp [hc, hg, hne, hhead, r.regex_ne]
    · rw [hg]
      exact PatternRow.matches_iff.mp hmatch
    · rwa [hc]
    · rw [hs]
      exact Severity.text_fatal.mpr hfatal

end Analyzer

section Capture

variable {p : PatternFile g} {serial docker : List Char}
  {options : List Char → List Char → List Char}

/-- `awk` adds the regex of a fatal row that it does not take for a comment, and nothing else. -/
theorem awkStep_line (out : List Char) (e : PatternEntry g) :
    awkStep out e.line = (e.joined.map (addAlternative out)).getD out := by
  rcases e with ⟨text, hline⟩ | ⟨text, hspace, hline⟩ | r
  · have hhash : isSpace '#' = false := by decide
    simp [awkStep, awkSkips, PatternEntry.line, PatternEntry.joined, hhash]
  · simp [awkStep, awkSkips, PatternEntry.line, PatternEntry.joined, List.all_eq_true.mpr hspace]
  · obtain ⟨hsev, hregex⟩ := awkField_row (r := r)
    simp only [awkStep, PatternEntry.line, awkSkips_row, hsev, hregex, Severity.text_fatal,
      PatternEntry.joined]
    by_cases hhidden : r.hidden = true
    · simp [hhidden]
    · by_cases hfatal : r.severity = .fatal <;> simp [hhidden, hfatal]

/-- `PANIC_REGEX` is the alternation of the joined regexes. -/
theorem PatternFile.panicRegex_text : panicRegex p.text = p.joined.foldl addAlternative [] := by
  have hlines : panicRegex p.text =
      p.allEntries.foldl (fun out e => awkStep out e.line) [] := by
    rw [panicRegex, PatternFile.text, records_delimited p.entries_line p.rest_line,
      List.foldl_append, PatternFile.allEntries, List.foldl_append, List.foldl_map]
    rcases p.rest with _ | e
    · rfl
    · have hnil : ∀ out, awkStep out [] = out := fun out => rfl
      by_cases hline : e.line = [] <;> simp [hline, hnil]
  rw [hlines, PatternFile.joined, List.foldl_filterMap]
  congr
  funext out e
  rw [awkStep_line]
  cases e.joined <;> rfl

/-- An alternation matches a line if one of the regexes does. -/
theorem foldl_addAlternative {rs : List (List Char)} {out : List Char} (hout : g.WellFormed out)
    (hne : out ≠ []) (hrs : ∀ r ∈ rs, g.WellFormed r) :
    (rs.foldl addAlternative out).head? = out.head? ∧ g.WellFormed (rs.foldl addAlternative out) ∧
      ∀ line, g.search (rs.foldl addAlternative out) line =
        (g.search out line || rs.any fun r => g.search r line) := by
  induction rs generalizing out with
  | nil => simp [hout]
  | cons r rs ih =>
    have hr := hrs r List.mem_cons_self
    obtain ⟨hhead, hwf, hsearch⟩ := ih (g.wellFormed_alternation hout hr) (by simp)
      fun q hq => hrs q (List.mem_cons_of_mem r hq)
    simp only [List.foldl_cons, addAlternative, hne, if_false]
    refine ⟨?_, hwf, fun line => ?_⟩
    · rw [hhead]
      obtain ⟨c, cs, rfl⟩ := List.exists_cons_of_ne_nil hne
      rfl
    · rw [hsearch line, g.search_alternation line hout hr, List.any_cons, Bool.or_assoc]

/-- What is joined is the regex of a fatal row. -/
theorem PatternFile.joined_mem {regex : List Char} (h : regex ∈ p.joined) :
    ∃ r, .row r ∈ p.allEntries ∧ r.severity = .fatal ∧ r.regex = regex := by
  obtain ⟨e, he, hjoined⟩ := List.mem_filterMap.mp h
  rcases e with _ | _ | r
  · cases hjoined
  · cases hjoined
  · simp only [PatternEntry.joined, Option.ite_none_right_eq_some, Option.some.injEq] at hjoined
    exact ⟨r, he, hjoined.1.1, hjoined.2⟩

/-- `PANIC_REGEX` begins like the first of the joined regexes, and matches like all of them. -/
theorem PatternFile.panicRegex_spec (hne : p.joined ≠ []) :
    (panicRegex p.text).head? = p.joined.head?.bind List.head? ∧ panicRegex p.text ≠ [] ∧
      ∀ line, g.search (panicRegex p.text) line = p.joined.any fun r => g.search r line := by
  have hwf : ∀ r ∈ p.joined, g.WellFormed r ∧ r ≠ [] := by
    intro r hr
    obtain ⟨row, -, -, rfl⟩ := joined_mem hr
    exact ⟨row.wellFormed, row.regex_ne⟩
  obtain ⟨r, rs, hjoined⟩ := List.exists_cons_of_ne_nil hne
  rw [panicRegex_text, hjoined]
  rw [hjoined] at hwf
  obtain ⟨hr, hrne⟩ := hwf r List.mem_cons_self
  obtain ⟨hhead, -, hsearch⟩ := foldl_addAlternative hr hrne
    fun q hq => (hwf q (List.mem_cons_of_mem r hq)).1
  obtain ⟨c, cs, rfl⟩ := List.exists_cons_of_ne_nil hrne
  have hfirst : addAlternative [] (c :: cs) = c :: cs := rfl
  rw [List.foldl_cons, hfirst]
  refine ⟨hhead, fun hnil => ?_, fun line => ?_⟩
  · rw [hnil] at hhead
    cases hhead
  · rw [hsearch line, List.any_cons]

/-- The logs that the capture script scans are those that the analyzer scans. -/
theorem mem_mirror {P : List Char → Prop} (hnil : ¬P []) :
    (∃ f ∈ [if serial = [] then docker else serial, docker], P f) ↔
      ∃ f ∈ [serial, docker], P f := by
  by_cases hserial : serial = []
  · simp [hserial, hnil]
  · simp [hserial]

/-- Unless it takes the regex for options, the capture script fires when in one of the logs the
first line that matches is not empty. -/
theorem capturePanic_iff (hdash : p.joined.head?.bind List.head? ≠ some '-') :
    capturePanic g options p.text serial docker ↔
      ∃ f ∈ [serial, docker], ∃ line, p.firstMatch f = some line ∧ line ≠ [] := by
  rw [← mem_mirror (by simp [PatternFile.firstMatch])]
  simp only [capturePanic, Bool.and_eq_true, decide_eq_true_eq, List.any_eq_true]
  by_cases hne : p.joined = []
  · have hnone : ∀ f, p.firstMatch f = none := fun f => by
      simp [PatternFile.firstMatch, hne, List.find?_eq_none]
    simp [PatternFile.panicRegex_text, hne, hnone]
  obtain ⟨hhead, hregex, hsearch⟩ := PatternFile.panicRegex_spec hne
  rw [← hhead] at hdash
  have hhit : ∀ f, captureHit g options (panicRegex p.text) f = (p.firstMatch f).getD [] := by
    intro f
    rw [captureHit, if_neg hdash, PatternFile.firstMatch, funext hsearch]
  constructor
  · rintro ⟨-, f, hf, -, hmatch⟩
    rw [hhit] at hmatch
    rcases hfirst : p.firstMatch f with _ | line
    · simp [hfirst] at hmatch
    · exact ⟨f, hf, line, hfirst, by simpa [hfirst] using hmatch⟩
  · rintro ⟨f, hf, line, hfirst, hline⟩
    refine ⟨hregex, f, hf, fun hnil => ?_, ?_⟩
    · simp [hnil, PatternFile.firstMatch] at hfirst
    · rw [hhit, hfirst]
      exact hline

/-- When it takes the regex for options, the capture script fires as `grep` pleases. -/
theorem capturePanic_options {hit : List Char}
    (hdash : p.joined.head?.bind List.head? = some '-') (hlogs : ¬(serial = [] ∧ docker = [])) :
    capturePanic g (fun _ _ => hit) p.text serial docker ↔ hit ≠ [] := by
  have hne : p.joined ≠ [] := by
    rintro hnil
    simp [hnil] at hdash
  obtain ⟨hhead, hregex, -⟩ := PatternFile.panicRegex_spec hne
  rw [← hhead] at hdash
  simp only [capturePanic, captureHit, hdash, if_true]
  by_cases hserial : serial = []
  · have hdocker : docker ≠ [] := fun h => hlogs ⟨hserial, h⟩
    simp [hregex, hserial, hdocker]
  · by_cases hdocker : docker = [] <;> simp [hregex, hserial, hdocker]

/-- Nothing is found in a file that a joined regex does not match. -/
theorem PatternFile.panics_of_firstMatch {f line : List Char} (hf : f ∈ [serial, docker])
    (h : p.firstMatch f = some line) : p.Panics serial docker := by
  rw [PatternFile.firstMatch] at h
  have hany : (p.joined.any fun regex => g.search regex line) = true :=
    List.find?_some (p := fun line => p.joined.any fun regex => g.search regex line) h
  obtain ⟨regex, hregex, hmatch⟩ := List.any_eq_true.mp hany
  obtain ⟨r, hr, hfatal, rfl⟩ := joined_mem hregex
  exact ⟨r, hr, hfatal, f, hf, line, List.mem_of_find?_eq_some h, hmatch⟩

/-- **The panic detectors.** Whatever `grep` takes an operand with a hyphen for, both detectors
fire exactly if a fatal row matches, when the file is detectable in the logs; and only then. -/
theorem detectors_agree_iff (p : PatternFile g) (serial docker : List Char) :
    (∀ options, p.Agree options serial docker) ↔ p.Detectable serial docker := by
  have hsub : (∃ r, PatternEntry.row r ∈ p.entries ∧ r.severity = .fatal ∧
      r.category ∈ panicCategories ∧ r.Matches serial docker) → p.Panics serial docker := by
    rintro ⟨r, hr, hfatal, -, hmatch⟩
    exact ⟨r, List.mem_append_left _ hr, hfatal, hmatch⟩
  constructor
  · intro hagree
    by_cases hlogs : serial = [] ∧ docker = []
    · exact .inl hlogs
    have hdash : p.joined.head?.bind List.head? ≠ some '-' := by
      intro hdash
      by_cases hpanic : p.Panics serial docker
      · have hquiet := (hagree fun _ _ => []).1.mpr hpanic
        exact (capturePanic_options hdash hlogs).mp hquiet rfl
      · have hloud : capturePanic g (fun _ _ => ['-']) p.text serial docker :=
          (capturePanic_options hdash hlogs).mpr (by simp)
        exact hpanic ((hagree fun _ _ => ['-']).1.mp hloud)
    refine .inr ⟨hdash, fun hpanic => ⟨?_, ?_⟩⟩
    · exact analyzerPanic_iff.mp ((hagree fun _ _ => []).2.mpr hpanic)
    · exact (capturePanic_iff hdash).mp ((hagree fun _ _ => []).1.mpr hpanic)
  · rintro (⟨rfl, rfl⟩ | ⟨hdash, hdetect⟩) options
    · have hpanic : ¬p.Panics [] [] := by
        rintro ⟨r, -, -, f, hf, line, hline, -⟩
        obtain rfl : f = [] := by simpa using hf
        simp at hline
      refine ⟨iff_of_false ?_ hpanic, iff_of_false (fun h => hpanic (hsub ?_)) hpanic⟩
      · simp [capturePanic]
      · exact analyzerPanic_iff.mp h
    · refine ⟨(capturePanic_iff hdash).trans ⟨?_, fun h => (hdetect h).2⟩,
        analyzerPanic_iff.trans ⟨hsub, fun h => (hdetect h).1⟩⟩
      rintro ⟨f, hf, line, hfirst, -⟩
      exact p.panics_of_firstMatch hf hfirst

end Capture

/-- `grep -E` for regexes of words and alternatives. -/
def plainGrep : Grep where
  WellFormed r := (r.all fun c => c.isAlphanum || c = ' ' || c = '|') ∧ [] ∉ r.splitOn '|'
  search r line := (r.splitOn '|').any fun word => decide (word <:+: line)
  wellFormed_alternation := by
    rintro r s ⟨hr, hrne⟩ ⟨hs, hsne⟩
    refine ⟨?_, ?_⟩
    · rw [List.all_append, List.all_cons, hr, hs]
      decide
    · simp [List.splitOn_append_cons_self, hrne, hsne]
  search_alternation := by
    intro r s line _ _
    simp [List.splitOn_append_cons_self]

/-- A row of a category that the conventions name. -/
def timeoutRow : PatternRow plainGrep where
  category := "timeout".toList
  severity := .fatal
  regex := "DHCP timeout".toList
  description := "no lease".toList
  category_head := by decide
  category_tab := by decide
  category_line := by decide
  wellFormed := ⟨by decide, by decide⟩
  regex_ne := by decide
  regex_tab := by decide
  regex_line := by decide
  description_line := by decide

/-- A file with that row. -/
def timeoutPatterns : PatternFile plainGrep := ⟨[.row timeoutRow], none⟩

/-- The capture script stops at a match of a fatal row of which the analyzer makes no panic. -/
theorem fatal_timeout_not_panic :
    capturePanic plainGrep (fun _ _ => []) timeoutPatterns.text "en0 DHCP timeout".toList [] ∧
      ¬analyzerPanic plainGrep timeoutPatterns.text "en0 DHCP timeout".toList [] ∧
      ¬timeoutPatterns.Agree (fun _ _ => []) "en0 DHCP timeout".toList [] := by
  have hcapture : capturePanic plainGrep (fun _ _ => []) timeoutPatterns.text
      "en0 DHCP timeout".toList [] := by decide +kernel
  have hanalyzer : ¬analyzerPanic plainGrep timeoutPatterns.text
      "en0 DHCP timeout".toList [] := by decide +kernel
  exact ⟨hcapture, hanalyzer, fun hagree => hanalyzer (hagree.2.mpr (hagree.1.mp hcapture))⟩

end DockerMacos
