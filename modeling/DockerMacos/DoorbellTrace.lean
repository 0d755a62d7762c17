import Mathlib.Data.List.Infix
import DockerMacos.Json

/-!
# The Doorbell Trace

`tests/capture-doorbell-mmio.sh` captures the register writes of the guest and looks for the
doorbell: the first write to one of the candidate offsets after a write that arms the FIFO, a
value other than zero at `0x1000`. It first filters the log for candidates, and gives up when
the filter leaves nothing.

## The filter

The filter is a regex that joins the candidates with `\|`. To `grep -E` a bar with a backslash
in front of it is an ordinary character, so the candidates are no alternatives: the pattern
needs a bar behind the name of the event, and a documented line has none there. The patterns of
the script are given by their parts here, and `ereAlternatives` divides a group as `grep -E`
does.

## The search

`TraceLine` is a line of a log as the script documents it, or a line of something else, and
`doorbell` is what the capture is for: the first candidate behind the line that arms the FIFO.

## Main results

* `not_searches_hitPattern`: the filter passes no documented line.
* `modeA_inconclusive`: a log of documented lines has no hit.
* `doorbell_iff`: when the verdict is the doorbell.
-/

namespace DockerMacos

/-! ### Patterns -/

/-- The parts of the patterns. -/
inductive PatternPart
  | text (s : List Char)
  /-- `.*` -/
  | anything
  /-- `(s)?` -/
  | optional (s : List Char)
  /-- `(s|t)` -/
  | oneOf (ss : List (List Char))
  /-- `$` -/
  | lineEnd

/-- The parts match the beginning of a line. -/
def matchesAt : List PatternPart → List Char → Bool
  | [], _ => true
  | .text s :: ps, line => s.isPrefixOf line && matchesAt ps (line.drop s.length)
  | .anything :: ps, line => line.tails.any (matchesAt ps)
  | .optional s :: ps, line =>
      (s.isPrefixOf line && matchesAt ps (line.drop s.length)) || matchesAt ps line
  | .oneOf ss :: ps, line =>
      ss.any fun s => s.isPrefixOf line && matchesAt ps (line.drop s.length)
  | .lineEnd :: ps, line => line.isEmpty && matchesAt ps line

/-- The parts match somewhere in a line. -/
def searches (ps : List PatternPart) (line : List Char) : Bool := line.tails.any (matchesAt ps)

/-- A character in front of the first alternative. -/
def consAlternative (c : Char) : List (List Char) → List (List Char)
  | [] => [[c]]
  | s :: ss => (c :: s) :: ss

/-- The alternatives of a group of `grep -E` without other operators. A backslash makes the
character behind it an ordinary one. -/
def ereAlternatives : List Char → List (List Char)
  | [] => [[]]
  | '\\' :: c :: rest => consAlternative c (ereAlternatives rest)
  | '|' :: rest => [] :: ereAlternatives rest
  | c :: rest => consAlternative c (ereAlternatives rest)

/-! ### The script -/

/-- `CANDIDATE_OFFSETS` -/
def candidateOffsets : List (List Char) :=
  ["0x1004".toList, "0x1008".toList, "0x1010".toList, "0x101c".toList, "0x1020".toList,
    "0x1024".toList, "0x1028".toList, "0x1030".toList, "0x1034".toList]

/-- `sed 's/|$//'` -/
def dropBar (s : List Char) : List Char := if s.getLast? = some '|' then s.dropLast else s

/-- `sed 's/|/\\|/g'` -/
def escapeBars (s : List Char) : List Char :=
  s.flatMap fun c => if c = '|' then ['\\', '|'] else [c]

/-- `CANDIDATE_REGEX` -/
def candidateRegex : List Char := escapeBars (dropBar (candidateOffsets.flatMap (· ++ ['|'])))

def mmioWrite : List Char := "apple_gfx_pci_mmio_write".toList

/-- `apple_gfx_pci_mmio_write.*ofs=(0x)?($CANDIDATE_REGEX)` -/
def hitPattern : List PatternPart :=
  [.text mmioWrite, .anything, .text "ofs=".toList, .optional "0x".toList,
    .oneOf (ereAlternatives candidateRegex)]

/-- `mmio-hits.txt` -/
def mmioHits (log : List (List Char)) : List (List Char) := log.filter (searches hitPattern)

/-- The number of the first line that writes to `0x1000`, but for those that end in
`val=0x0`. -/
def armLine (log : List (List Char)) : Option ℕ :=
  (log.findIdx? fun line =>
    searches [.text mmioWrite, .anything, .text "ofs=0x1000".toList] line &&
      !searches [.text "val=0x0".toList, .lineEnd] line).map (· + 1)

/-- The fields of a line to `awk`. -/
def awkFields (line : List Char) : List (List Char) :=
  (line.splitOnP fun c => c = ' ' || c = '\t').filter fun f => !f.isEmpty

/-- `sub(/ofs=(0x)?/, "0x", o)` -/
def subOfs : List Char → List Char
  | [] => []
  | c :: rest =>
      if "ofs=".toList.isPrefixOf (c :: rest) then
        let tail := (c :: rest).drop 4
        "0x".toList ++ if "0x".toList.isPrefixOf tail then tail.drop 2 else tail
      else c :: subOfs rest

/-- The first field with an offset in a write behind line `start`. -/
def firstOffset (start : ℕ) (log : List (List Char)) : Option (List Char) :=
  (((log.drop start).filter (searches [.text mmioWrite])).flatMap awkFields).find?
    (searches [.text "ofs=".toList]) |>.map subOfs

inductive Confidence
  | none
  | low
  | high
  deriving DecidableEq

/-- The verdict; without a doorbell offset it is inconclusive. -/
structure DoorbellReport where
  doorbellOffset : Option (List Char)
  confidence : Confidence
  armLine : Option ℕ
  exitCode : ℕ
  deriving DecidableEq

/-- `emit_verdict_mode_a`, behind the filter of `run_mode_a`. -/
def emitVerdictModeA (log : List (List Char)) : DoorbellReport :=
  if (mmioHits log).length = 0 then ⟨none, .none, none, 1⟩
  else
    match (armLine log).bind fun start => firstOffset start log with
    | some offset => ⟨some offset, .high, armLine log, 0⟩
    | none => ⟨none, .low, armLine log, 1⟩

/-! ### What it is for -/

/-- The value of a hexadecimal number. -/
def hexValue (ds : List Char) : ℕ := ds.foldl (fun n c => 16 * n + (Json.hexDigit c).getD 0) 0

/-- A line of the trace, as the script documents it; something may stand in front of it. -/
structure TraceWrite where
  lead : List Char
  ofs : List Char
  val : List Char
  size : List Char
  lead_event : ¬mmioWrite <:+: lead
  ofs_hex : ofs ≠ [] ∧ ∀ c ∈ ofs, (Json.hexDigit c).isSome = true
  val_hex : val ≠ [] ∧ ∀ c ∈ val, (Json.hexDigit c).isSome = true
  size_digits : size ≠ [] ∧ ∀ c ∈ size, c.isDigit = true

/-- The fields of the line. -/
def TraceWrite.fields (w : TraceWrite) : List Char :=
  " ofs=0x".toList ++ w.ofs ++ " val=0x".toList ++ w.val ++ " size=".toList ++ w.size

/-- A line of a captured log. -/
inductive TraceLine
  | write (w : TraceWrite)
  | other (text : List Char) (event : ¬mmioWrite <:+: text)

def TraceLine.text : TraceLine → List Char
  | .write w => w.lead ++ mmioWrite ++ w.fields
  | .other text _ => text

/-- The line arms the FIFO. -/
def TraceLine.arms : TraceLine → Bool
  | .write w => hexValue w.ofs == 0x1000 && hexValue w.val != 0
  | .other _ _ => false

/-- The offset that the line writes to, if it is a candidate. -/
def TraceLine.candidate : TraceLine → Option (List Char)
  | .write w =>
      if (candidateOffsets.map fun o => hexValue (o.drop 2)).contains (hexValue w.ofs) then
        some ("0x".toList ++ w.ofs)
      else none
  | .other _ _ => none

/-- The doorbell: the first candidate behind the line that arms the FIFO first. -/
def doorbell (log : List TraceLine) : Option (List Char) :=
  (log.dropWhile fun line => !line.arms).tail.findSome? TraceLine.candidate

/-! ### The filter -/

section Filter

variable {ps : List PatternPart} {line : List Char} {log : List TraceLine}

/-- The part needs a bar. -/
def PatternPart.NeedsBar : PatternPart → Prop
  | .oneOf ss => ∀ s ∈ ss, '|' ∈ s
  | _ => False

/-- What matches a part that needs a bar has one. -/
theorem bar_of_matchesAt (h : matchesAt ps line = true) (hbar : ∃ p ∈ ps, p.NeedsBar) :
    '|' ∈ line := by
  induction ps generalizing line with
  | nil => simp at hbar
  | cons p ps ih =>
    have hdrop : ∀ s : List Char, matchesAt ps (line.drop s.length) = true →
        (∃ p ∈ ps, p.NeedsBar) → '|' ∈ line :=
      fun s hs hex => List.mem_of_mem_drop (ih hs hex)
    obtain ⟨q, hq, hneeds⟩ := hbar
    have hrest : q ≠ p → ∃ p ∈ ps, p.NeedsBar := fun hne =>
      ⟨q, (List.mem_cons.mp hq).resolve_left hne, hneeds⟩
    cases p with
    | text s =>
      rw [matchesAt, Bool.and_eq_true] at h
      exact hdrop s h.2 (hrest fun heq => by subst heq; exact hneeds)
    | anything =>
      rw [matchesAt, List.any_eq_true] at h
      obtain ⟨rest, hsuffix, hmatch⟩ := h
      refine (List.mem_tails _ _ |>.mp hsuffix).subset (ih hmatch (hrest fun heq => ?_))
      subst heq
      exact hneeds
    | optional s =>
      rw [matchesAt, Bool.or_eq_true, Bool.and_eq_true] at h
      have hex := hrest fun heq => by subst heq; exact hneeds
      rcases h with ⟨-, h⟩ | h
      · exact hdrop s h hex
      · exact ih h hex
    | oneOf ss =>
      rw [matchesAt, List.any_eq_true] at h
      obtain ⟨s, hs, hmatch⟩ := h
      rw [Bool.and_eq_true] at hmatch
      by_cases heq : q = .oneOf ss
      · subst heq
        exact (List.isPrefixOf_iff_prefix.mp hmatch.1).subset (hneeds s hs)
      · exact hdrop s hmatch.2 (hrest heq)
    | lineEnd =>
      rw [matchesAt, Bool.and_eq_true] at h
      exact ih h.2 (hrest fun heq => by subst heq; exact hneeds)

/-- All alternatives are one, and have the bars in it. -/
theorem candidateRegex_needsBar :
    (PatternPart.oneOf (ereAlternatives candidateRegex)).NeedsBar := by
  have hbar : ∀ s ∈ ereAlternatives candidateRegex, '|' ∈ s := by decide +kernel
  exact hbar

/-- A hit has a bar behind the name of the event. -/
theorem searches_hitPattern (h : searches hitPattern line = true) :
    ∃ before after, line = before ++ mmioWrite ++ after ∧ '|' ∈ after := by
  rw [searches, List.any_eq_true] at h
  obtain ⟨rest, hsuffix, hmatch⟩ := h
  obtain ⟨before, rfl⟩ := List.mem_tails _ _ |>.mp hsuffix
  rw [hitPattern, matchesAt, Bool.and_eq_true] at hmatch
  obtain ⟨after, rfl⟩ := List.isPrefixOf_iff_prefix.mp hmatch.1
  refine ⟨before, after, by rw [List.append_assoc], ?_⟩
  rw [List.drop_left] at hmatch
  exact bar_of_matchesAt hmatch.2 ⟨_, by simp only [List.mem_cons, true_or, or_true],
    candidateRegex_needsBar⟩

/-- Hexadecimal digits are no bars. -/
theorem hexDigits_bar {ds : List Char} (h : ∀ c ∈ ds, (Json.hexDigit c).isSome = true) :
    '|' ∉ ds := by
  intro hbar
  have hnone : Json.hexDigit '|' = none := rfl
  have hhex := h '|' hbar
  rw [hnone] at hhex
  exact Bool.false_ne_true hhex

/-- The fields of a documented line have no bar. -/
theorem TraceWrite.fields_bar (w : TraceWrite) : '|' ∉ w.fields := by
  have hsize : '|' ∉ w.size := fun h => Bool.false_ne_true (w.size_digits.2 _ h)
  refine List.not_mem_append (List.not_mem_append (List.not_mem_append
    (List.not_mem_append (List.not_mem_append ?_ ?_) ?_) ?_) ?_) hsize
  · decide
  · exact hexDigits_bar w.ofs_hex.2
  · decide
  · exact hexDigits_bar w.val_hex.2
  · decide

/-- **The filter** passes no documented line. -/
theorem not_searches_hitPattern (l : TraceLine) : searches hitPattern l.text = false := by
  by_contra hhit
  obtain ⟨before, after, htext, hbar⟩ := searches_hitPattern (by simpa using hhit)
  cases l with
  | other text hevent => exact hevent ⟨before, after, htext.symm⟩
  | write w =>
    rw [TraceLine.text, List.append_assoc] at htext
    have hafter : after <:+ w.lead ++ (mmioWrite ++ w.fields) := ⟨_, htext.symm⟩
    by_cases hlen : after.length ≤ (mmioWrite ++ w.fields).length
    · have hsuffix := List.suffix_of_suffix_length_le hafter (List.suffix_append _ _) hlen
      rcases List.mem_append.mp (hsuffix.subset hbar) with hmem | hmem
      · exact absurd hmem (by decide)
      · exact w.fields_bar hmem
    · -- the name of the event would stand in front of the line's own
      have hprefix : before ++ mmioWrite <+: w.lead ++ (mmioWrite ++ w.fields) :=
        ⟨_, htext.symm⟩
      have hlength := congrArg List.length htext
      simp only [List.length_append] at hlength hlen
      have hlead := List.prefix_of_prefix_length_le hprefix (List.prefix_append _ _)
        (by rw [List.length_append]; omega)
      exact w.lead_event ((List.suffix_append before mmioWrite).isInfix.trans hlead.isInfix)

end Filter

/-! ### The verdict -/

/-- **A log of documented lines** is inconclusive. -/
theorem modeA_inconclusive (log : List TraceLine) :
    emitVerdictModeA (log.map TraceLine.text) = ⟨none, .none, none, 1⟩ := by
  have hhits : mmioHits (log.map TraceLine.text) = [] := by
    rw [mmioHits, List.filter_eq_nil_iff]
    intro line hline
    obtain ⟨l, -, rfl⟩ := List.mem_map.mp hline
    rw [not_searches_hitPattern l]
    exact Bool.false_ne_true
  rw [emitVerdictModeA, hhits]
  rfl

/-- **The doorbell verdict** is right exactly for the logs without a doorbell. -/
theorem doorbell_iff (log : List TraceLine) :
    (emitVerdictModeA (log.map TraceLine.text)).doorbellOffset = doorbell log ↔
      doorbell log = none := by
  rw [modeA_inconclusive]
  exact eq_comm

/-- A write of one to the register that arms the FIFO. -/
def armWrite : TraceWrite where
  lead := []
  ofs := "1000".toList
  val := "00000001".toList
  size := "4".toList
  lead_event := by decide
  ofs_hex := ⟨by decide, List.all_eq_true.1 (by decide)⟩
  val_hex := ⟨by decide, List.all_eq_true.1 (by decide)⟩
  size_digits := ⟨by decide, List.all_eq_true.1 (by decide)⟩

/-- A write to a candidate. -/
def ringWrite : TraceWrite where
  lead := []
  ofs := "1034".toList
  val := "00001234".toList
  size := "4".toList
  lead_event := by decide
  ofs_hex := ⟨by decide, List.all_eq_true.1 (by decide)⟩
  val_hex := ⟨by decide, List.all_eq_true.1 (by decide)⟩
  size_digits := ⟨by decide, List.all_eq_true.1 (by decide)⟩

/-- The doorbell that follows the arming write is not found. -/
theorem doorbell_missed :
    doorbell [.write armWrite, .write ringWrite] = some "0x1034".toList ∧
      (emitVerdictModeA ([TraceLine.write armWrite, .write ringWrite].map
        TraceLine.text)).doorbellOffset ≠ doorbell [.write armWrite, .write ringWrite] := by
  have hdoorbell : doorbell [.write armWrite, .write ringWrite] = some "0x1034".toList := by
    decide +kernel
  refine ⟨hdoorbell, ?_⟩
  rw [modeA_inconclusive, hdoorbell]
  exact Option.some_ne_none _ |>.symm

end DockerMacos
