import Mathlib.Data.List.DropRight
import DockerMacos.Json

/-!
# The JSON Report

The analyzer writes its report with `printf` (`tests/analyze-boot-log.sh`). What goes into it
comes from log lines and pattern files, and is quoted by `json_quote`: five substitutions, one
after the other, of characters by their escapes, and a `tr` that deletes the other control
characters.

## Substitutions

Each substitution goes over the result of the one before. The backslash comes first, so that no
other escape is escaped again, and `jsonQuote_eq` says that together they write each character
as JSON has it. The command substitution around them takes newlines off the end; at that point
there are none left, as each has become an escape.

## Entries

An entry is an object with the quoted category, severity and description of a pattern, the count
of its matches and a sample. A sample of more than 200 characters is cut before it is quoted.

## Main results

* `jsonQuote_eq`: the substitutions write each character as JSON has it.
* `report_parses`: what the quoted strings and the entries of the report say to a JSON parser.
-/

namespace DockerMacos

/-- `${s//c/replacement}` -/
def replaceAll (c : Char) (replacement s : List Char) : List Char :=
  s.flatMap fun x => if x = c then replacement else [x]

/-- The characters of `tr -d '\000-\010\013\014\016-\037'`. -/
def trDeletes (c : Char) : Bool :=
  c.toNat ≤ 0o010 || c.toNat == 0o013 || c.toNat == 0o014 ||
    (0o016 ≤ c.toNat && c.toNat ≤ 0o037)

/-- `$(...)` takes the newlines off the end of an output. -/
def substituted (output : List Char) : List Char := output.rdropWhile (· = '\n')

/-- `json_quote` -/
def jsonQuote (s : List Char) : List Char :=
  let s := replaceAll '\\' ['\\', '\\'] s
  let s := replaceAll '"' ['\\', '"'] s
  let s := replaceAll '\n' ['\\', 'n'] s
  let s := replaceAll '\r' ['\\', 'r'] s
  let s := replaceAll '\t' ['\\', 't'] s
  let s := substituted (s.filter fun c => !trDeletes c)
  '"' :: (s ++ ['"'])

/-- A sample of more than 200 characters is cut. -/
def truncateSample (sample : List Char) : List Char :=
  if sample.length > 200 then sample.take 200 ++ "...".toList else sample

/-- The entry of a pattern that matches; `sample` is what `first_match` has found. -/
def reportEntry (cat sev desc : List Char) (count : ℕ) (sample : List Char) : List Char :=
  substituted ('{' :: "\"category\":".toList ++ substituted (jsonQuote cat) ++
    ",\"severity\":".toList ++ substituted (jsonQuote sev) ++
    ",\"description\":".toList ++ substituted (jsonQuote desc) ++
    ",\"count\":".toList ++ Nat.toDigits 10 count ++
    ",\"sample\":".toList ++ substituted (jsonQuote (truncateSample sample)) ++ ['}'])

/-- The entry of a milestone pattern that does not match. -/
def missingEntry (cat desc : List Char) : List Char :=
  substituted ('{' :: "\"category\":".toList ++ substituted (jsonQuote cat) ++
    ",\"description\":".toList ++ substituted (jsonQuote desc) ++ ['}'])

/-- A string without the control characters other than tab, newline and carriage return. -/
def withoutControls (s : List Char) : List Char :=
  s.filter fun c => !(c.toNat < 0x20 && c ≠ '\t' && c ≠ '\n' && c ≠ '\r')

/-! ### Quoting -/

section Quote

variable {s t : List Char}

/-- A substitution works on each part of a text. -/
@[simp]
theorem replaceAll_append (c : Char) (replacement s t : List Char) :
    replaceAll c replacement (s ++ t) =
      replaceAll c replacement s ++ replaceAll c replacement t :=
  List.flatMap_append

/-- An output that does not end in a newline stays as it is. -/
@[simp]
theorem substituted_concat {c : Char} (h : c ≠ '\n') : substituted (s ++ [c]) = s ++ [c] :=
  List.rdropWhile_concat_neg _ _ _ (by simpa using h)

/-- Nor does an output on one line lose anything. -/
theorem substituted_of_notMem (h : '\n' ∉ s) : substituted s = s := by
  rw [substituted, List.rdropWhile_eq_self_iff]
  intro hne hlast
  exact h (of_decide_eq_true hlast ▸ List.getLast_mem hne)

/-- The substitutions one after the other, and the deletion. -/
def escaped (s : List Char) : List Char :=
  (replaceAll '\t' ['\\', 't'] (replaceAll '\r' ['\\', 'r'] (replaceAll '\n' ['\\', 'n']
    (replaceAll '"' ['\\', '"'] (replaceAll '\\' ['\\', '\\'] s))))).filter fun c => !trDeletes c

/-- What becomes of a single character. No substitution touches what an earlier one has
written. -/
theorem escaped_singleton (c : Char) :
    escaped [c] = (withoutControls [c]).flatMap Json.escapeChar := by
  by_cases hback : c = '\\'
  · subst hback
    decide
  by_cases hquote : c = '"'
  · subst hquote
    decide
  by_cases hnl : c = '\n'
  · subst hnl
    decide
  by_cases hcr : c = '\r'
  · subst hcr
    decide
  by_cases htab : c = '\t'
  · subst htab
    decide
  have hdeletes : trDeletes c = decide (c.toNat < 0x20) := by
    have hne : c.toNat ≠ 9 ∧ c.toNat ≠ 10 ∧ c.toNat ≠ 13 :=
      ⟨fun h => htab (Char.toNat_inj.mp h), fun h => hnl (Char.toNat_inj.mp h),
        fun h => hcr (Char.toNat_inj.mp h)⟩
    rw [Bool.eq_iff_iff, trDeletes]
    simp only [Bool.or_eq_true, Bool.and_eq_true, decide_eq_true_eq, beq_iff_eq]
    omega
  simp only [escaped, replaceAll, List.flatMap_cons, List.flatMap_nil, List.append_nil,
    if_neg hback, if_neg hquote, if_neg hnl, if_neg hcr, if_neg htab, withoutControls,
    List.filter_cons, List.filter_nil, hdeletes]
  by_cases hlow : c.toNat < 0x20
  · simp [hlow, htab, hnl, hcr]
  · simp [hlow, Json.escapeChar, hback, hquote, htab, hnl, hcr]

/-- What `json_escape` makes of a text, character by character. -/
theorem escaped_eq (s : List Char) :
    escaped s = (withoutControls s).flatMap Json.escapeChar := by
  induction s with
  | nil => rfl
  | cons c s ih =>
    have happend : escaped ([c] ++ s) = escaped [c] ++ escaped s := by
      simp only [escaped, replaceAll_append, List.filter_append]
    have hwithout : withoutControls ([c] ++ s) = withoutControls [c] ++ withoutControls s :=
      List.filter_append _ _
    rw [← List.singleton_append, happend, hwithout, List.flatMap_append, escaped_singleton, ih]

/-- Without the other control characters a string can be written. -/
theorem withoutControls_writable (s : List Char) :
    ∀ c ∈ withoutControls s, Json.Writable c := by
  intro c hc
  have hkeep := (List.mem_filter.mp hc).2
  simp only [Bool.not_eq_true', Bool.and_eq_false_iff, decide_eq_false_iff_not, ne_eq,
    not_not] at hkeep
  rcases hkeep with ((hprint | htab) | hnl) | hcr
  · exact .inr (.inr (.inr (by omega)))
  · exact .inr (.inr (.inl htab))
  · exact .inl hnl
  · exact .inr (.inl hcr)

/-- **`json_quote`** writes the string as JSON has it, without the other control characters. -/
theorem jsonQuote_eq (s : List Char) : jsonQuote s = Json.quote (withoutControls s) := by
  have hnl : '\n' ∉ escaped s := by
    rw [escaped_eq, List.mem_flatMap]
    rintro ⟨c, -, hc⟩
    rw [Json.escapeChar] at hc
    split_ifs at hc with _ _ hnl <;> simp at hc
    exact hnl hc.symm
  change '"' :: (substituted (escaped s) ++ ['"']) = _
  rw [substituted_of_notMem hnl, escaped_eq]
  rfl

end Quote

/-! ### Entries -/

/-- A member whose value is a quoted string. -/
def quotedMember (key s : List Char) : Json.Member :=
  ⟨key, jsonQuote s, .string (withoutControls s)⟩

/-- The members of an entry of a pattern that matches. -/
def reportMembers (cat sev desc : List Char) (count : ℕ) (sample : List Char) :
    List Json.Member :=
  [quotedMember "category".toList cat, quotedMember "severity".toList sev,
    quotedMember "description".toList desc,
    ⟨"count".toList, Nat.toDigits 10 count, .number (.ofNat count)⟩,
    quotedMember "sample".toList (truncateSample sample)]

/-- The members of an entry of a milestone pattern that does not match. -/
def missingMembers (cat desc : List Char) : List Json.Member :=
  [quotedMember "category".toList cat, quotedMember "description".toList desc]

section Entries

variable (cat sev desc : List Char) (count : ℕ) (sample : List Char)

/-- A quoted text ends in a quote, so nothing is cut off. -/
theorem substituted_jsonQuote (s : List Char) : substituted (jsonQuote s) = jsonQuote s := by
  rw [jsonQuote_eq, Json.quote, ← List.cons_append]
  exact substituted_concat (by decide)

/-- The format string of `printf` writes an object. -/
theorem reportEntry_eq :
    reportEntry cat sev desc count sample =
      Json.objectText (reportMembers cat sev desc count sample) := by
  rw [reportEntry, substituted_jsonQuote, substituted_jsonQuote, substituted_jsonQuote,
    substituted_jsonQuote, substituted_concat (by decide)]
  simp [Json.objectText, reportMembers, quotedMember, Json.Member.written, Json.quote,
    Json.escapeChar, List.intercalate]

/-- So does that for a milestone that is missing. -/
theorem missingEntry_eq : missingEntry cat desc = Json.objectText (missingMembers cat desc) := by
  rw [missingEntry, substituted_jsonQuote, substituted_jsonQuote,
    substituted_concat (by decide)]
  simp [Json.objectText, missingMembers, quotedMember, Json.Member.written, Json.quote,
    Json.escapeChar, List.intercalate]

/-- A quoted string is read back wherever it stands. -/
theorem value_jsonQuote (s rest : List Char) (n : ℕ) :
    Json.value (n + 1) (jsonQuote s ++ rest) = some (.string (withoutControls s), rest) := by
  rw [jsonQuote_eq]
  exact Json.value_quote (withoutControls_writable s)

/-- The names of the members have no control characters. -/
theorem memberNames_writable :
    ∀ key ∈ ["category".toList, "severity".toList, "description".toList, "count".toList,
      "sample".toList], ∀ c ∈ key, Json.Writable c := by
  have hall : ∀ key ∈ ["category".toList, "severity".toList, "description".toList,
      "count".toList, "sample".toList], key.all (fun c => decide (Json.Writable c)) = true := by
    decide
  exact fun key hkey c hc => of_decide_eq_true (List.all_eq_true.1 (hall key hkey) c hc)

/-- A report is read back with its members, but for the control characters. -/
theorem parse_reportEntry :
    Json.parse (reportEntry cat sev desc count sample) =
      some (Json.objectValue (reportMembers cat sev desc count sample)) := by
  rw [reportEntry_eq]
  refine Json.parse_objectText (by simp [reportMembers]) (fun m hm => ?_)
    fun m hm n rest hrest => ?_
  · refine memberNames_writable m.key ?_
    simp only [reportMembers, quotedMember, List.mem_cons, List.not_mem_nil, or_false] at hm
    rcases hm with rfl | rfl | rfl | rfl | rfl <;> simp
  · simp only [reportMembers, quotedMember, List.mem_cons, List.not_mem_nil, or_false] at hm
    rcases hm with rfl | rfl | rfl | rfl | rfl
    · exact value_jsonQuote cat rest n
    · exact value_jsonQuote sev rest n
    · exact value_jsonQuote desc rest n
    · exact Json.value_toDigits count hrest
    · exact value_jsonQuote (truncateSample sample) rest n

/-- So is the entry of a milestone that is missing. -/
theorem parse_missingEntry :
    Json.parse (missingEntry cat desc) = some (Json.objectValue (missingMembers cat desc)) := by
  rw [missingEntry_eq]
  refine Json.parse_objectText (by simp [missingMembers]) (fun m hm => ?_) fun m hm n rest _ => ?_
  · refine memberNames_writable m.key ?_
    simp only [missingMembers, quotedMember, List.mem_cons, List.not_mem_nil, or_false] at hm
    rcases hm with rfl | rfl <;> simp
  · simp only [missingMembers, quotedMember, List.mem_cons, List.not_mem_nil, or_false] at hm
    rcases hm with rfl | rfl
    · exact value_jsonQuote cat rest n
    · exact value_jsonQuote desc rest n

end Entries

/-- **The JSON report.** A quoted string is a JSON string, and says the string without the
control characters other than tab, newline and carriage return; an entry is a JSON object, and
says so of the category, the severity, the description and the sample, which is cut to 200
characters, and the count. -/
theorem report_parses :
    (∀ s, Json.parse (jsonQuote s) = some (.string (withoutControls s))) ∧
    (∀ cat sev desc count sample, Json.parse (reportEntry cat sev desc count sample) =
      some (.object [("category".toList, .string (withoutControls cat)),
        ("severity".toList, .string (withoutControls sev)),
        ("description".toList, .string (withoutControls desc)),
        ("count".toList, .number (.ofNat count)),
        ("sample".toList, .string (withoutControls (truncateSample sample)))])) ∧
    ∀ cat desc, Json.parse (missingEntry cat desc) =
      some (.object [("category".toList, .string (withoutControls cat)),
        ("description".toList, .string (withoutControls desc))]) := by
  refine ⟨fun s => ?_, parse_reportEntry, parse_missingEntry⟩
  rw [jsonQuote_eq]
  exact Json.parse_quote (withoutControls_writable s)

/-- Of a longer line an entry says the first 200 characters only. -/
theorem reportEntry_cuts :
    Json.parse (reportEntry "hang".toList "warn".toList [] 1 (List.replicate 201 'a')) ≠
      some (.object [("category".toList, .string "hang".toList),
        ("severity".toList, .string "warn".toList), ("description".toList, .string []),
        ("count".toList, .number (.ofNat 1)),
        ("sample".toList, .string (List.replicate 201 'a'))]) := by
  intro h
  rw [parse_reportEntry] at h
  simp only [Json.objectValue, reportMembers, quotedMember, List.map_cons, List.map_nil,
    Option.some_inj, JsonValue.object.injEq, List.cons.injEq, Prod.mk.injEq,
    JsonValue.string.injEq, true_and] at h
  exact absurd h.2.2.2.1 (by decide +kernel)

end DockerMacos
