import Mathlib.Data.List.Basic
import Mathlib.Data.List.DropRight
import Mathlib.Data.List.TakeWhile

/-!
# Delimited Text

Text is divided by separators, and programs differ in what they make of its ends and of
separators that follow each other.

## Lines

`records` are what `grep` and `awk` work on: a last piece without separator counts if it is not
empty. `terminated` is what the loop `while read` works on: the last piece does not count.

## Fields

Within a line, `awk` divides at every separator (`List.splitOn`), whereas the shell takes a run
of white space for one separator (`shellField`): an empty field is lost, and the next one takes
its place. So the shell finds in a line the `words` of it.

## Main results

* `records_delimited`, `terminated_delimited`: what is joined is found again.
* `shellField_word`: the shell finds a word that is not empty.
* `shellField_words`: it finds the words that are not empty, one by one.
-/

namespace DockerMacos

variable {α : Type*} [DecidableEq α]

/-- The pieces that separators end, and what is left after the last one. -/
def records (nl : α) (text : List α) : List (List α) :=
  (text.splitOn nl).dropLast ++ [(text.splitOn nl).getLastD []].filter fun l => !l.isEmpty

/-- The pieces that separators end. -/
def terminated (nl : α) (text : List α) : List (List α) :=
  (text.splitOn nl).dropLast

/-- Pieces that separators end, and what is left after the last one. -/
def delimited (nl : α) (ls : List (List α)) (rest : List α) : List α :=
  [nl].intercalate (ls ++ [rest])

/-- The next field of a text in the manner of the shell, and what follows it. -/
def shellField (tab : α) (text : List α) : List α × List α :=
  let text := text.dropWhile fun c => decide (c = tab)
  (text.takeWhile fun c => decide (c ≠ tab), text.dropWhile fun c => decide (c ≠ tab))

/-- The field of a text up to the next separator, and what follows the separator. -/
def cutField (tab : α) (text : List α) : List α × List α :=
  (text.takeWhile fun c => decide (c ≠ tab), (text.dropWhile fun c => decide (c ≠ tab)).tail)

/-- The fields of a text that are not empty. -/
def words (tab : α) (text : List α) : List (List α) :=
  (text.splitOn tab).filter fun w => !w.isEmpty

section Lines

variable {nl : α} {ls : List (List α)} {rest : List α}

/-- Pieces without separators come back. -/
theorem splitOn_delimited (hls : ∀ l ∈ ls, nl ∉ l) (hrest : nl ∉ rest) :
    (delimited nl ls rest).splitOn nl = ls ++ [rest] := by
  refine List.splitOn_intercalate nl (fun l hl => ?_) (by simp)
  rcases List.mem_append.mp hl with hl | hl
  · exact hls l hl
  · exact List.mem_singleton.mp hl ▸ hrest

/-- So do those that are terminated. -/
theorem terminated_delimited (hls : ∀ l ∈ ls, nl ∉ l) (hrest : nl ∉ rest) :
    terminated nl (delimited nl ls rest) = ls := by
  rw [terminated, splitOn_delimited hls hrest, List.dropLast_concat]

/-- And those with what is left, unless that is empty. -/
theorem records_delimited (hls : ∀ l ∈ ls, nl ∉ l) (hrest : nl ∉ rest) :
    records nl (delimited nl ls rest) = ls ++ [rest].filter fun l => !l.isEmpty := by
  simp [records, splitOn_delimited hls hrest]

/-- An empty text has no records. -/
@[simp]
theorem records_nil : records nl [] = [] := by
  simp [records]

end Lines

section Fields

variable {tab : α} {word rest : List α}

/-- The shell finds a word that is not empty. -/
theorem shellField_word (hne : word ≠ []) (hword : tab ∉ word) :
    shellField tab (word ++ tab :: rest) = (word, tab :: rest) := by
  obtain ⟨c, cs, rfl⟩ := List.exists_cons_of_ne_nil hne
  have hc : c ≠ tab := fun h => hword (by simp [h])
  have htake : ∀ x ∈ c :: cs, decide (x ≠ tab) = true :=
    fun x hx => decide_eq_true fun h => hword (h ▸ hx)
  have hdrop : ((c :: cs) ++ tab :: rest).dropWhile (fun x => decide (x = tab)) =
      (c :: cs) ++ tab :: rest := by
    simp [hc]
  simp only [shellField, hdrop]
  rw [List.takeWhile_append_of_pos htake, List.dropWhile_append_of_pos htake]
  simp

/-- One separator in front of it makes no difference. -/
theorem shellField_cons : shellField tab (tab :: rest) = shellField tab rest := by
  simp [shellField]

/-- An empty text has no words. -/
@[simp]
theorem words_nil : words tab [] = [] := rfl

/-- A separator in front of a text adds no word. -/
@[simp]
theorem words_cons : words tab (tab :: rest) = words tab rest := by
  have hsplit := List.splitOn_append_cons_self_of_not_mem (List.not_mem_nil (a := tab)) rest
  rw [List.nil_append] at hsplit
  rw [words, hsplit]
  rfl

/-- What a field is followed by: nothing, or a separator and the rest. -/
theorem dropWhile_cutField (tab : α) (text : List α) :
    (text.dropWhile fun c => decide (c ≠ tab)) = [] ∧ (cutField tab text).2 = [] ∨
      (text.dropWhile fun c => decide (c ≠ tab)) = tab :: (cutField tab text).2 := by
  rw [cutField]
  rcases hdrop : text.dropWhile fun c => decide (c ≠ tab) with _ | ⟨c, cs⟩
  · exact .inl ⟨rfl, rfl⟩
  · have hc := List.head?_dropWhile_not (fun c => decide (c ≠ tab)) text
    rw [hdrop] at hc
    exact .inr (by simpa using hc)

/-- The fields of a text that are not empty, one by one. -/
theorem words_cutField (tab : α) (text : List α) :
    words tab text = if (cutField tab text).1 = [] then words tab (cutField tab text).2
      else (cutField tab text).1 :: words tab (cutField tab text).2 := by
  have hnot : tab ∉ (cutField tab text).1 := fun hmem => by
    simpa using List.mem_takeWhile_imp hmem
  have hsplit : text = (cutField tab text).1 ++ text.dropWhile fun c => decide (c ≠ tab) :=
    List.takeWhile_append_dropWhile.symm
  rcases dropWhile_cutField tab text with ⟨hnil, hrest⟩ | hcons
  · rw [hnil, List.append_nil] at hsplit
    rw [← hsplit] at hnot ⊢
    rw [hrest, words, List.splitOn_eq_singleton hnot]
    by_cases hempty : text = [] <;> simp [hempty]
  · rw [hcons] at hsplit
    conv_lhs => rw [words, hsplit, List.splitOn_append_cons_self_of_not_mem hnot]
    by_cases hempty : (cutField tab text).1 = [] <;> simp [words, hempty]

/-- The shell finds the words one by one. -/
theorem shellField_words (tab : α) (text : List α) :
    (shellField tab text).1 = (words tab text).headD [] ∧
      words tab (shellField tab text).2 = (words tab text).tail := by
  induction text with
  | nil => exact ⟨rfl, rfl⟩
  | cons c text ih =>
    by_cases hc : c = tab
    · subst hc
      rw [shellField_cons, words_cons]
      exact ih
    · have hfield : shellField tab (c :: text) = ((cutField tab (c :: text)).1,
          (c :: text).dropWhile fun c => decide (c ≠ tab)) := by
        simp [shellField, cutField, hc]
      have hne : (cutField tab (c :: text)).1 ≠ [] := by simp [cutField, hc]
      rw [hfield, words_cutField tab (c :: text), if_neg hne]
      refine ⟨rfl, ?_⟩
      rcases dropWhile_cutField tab (c :: text) with ⟨hnil, hrest⟩ | hcons
      · rw [hnil, hrest]
        rfl
      · rw [hcons, words_cons]
        rfl

/-- A field that is not empty is one to the shell too. -/
theorem shellField_cutField {text : List α} (h : (cutField tab text).1 ≠ []) :
    shellField tab text =
      ((cutField tab text).1, text.dropWhile fun c => decide (c ≠ tab)) := by
  cases text with
  | nil => exact absurd rfl h
  | cons c text =>
    by_cases hc : c = tab
    · exact absurd (by simp [cutField, hc]) h
    · simp [shellField, cutField, hc]

/-- The separator behind a field makes no difference to the shell. -/
theorem shellField_dropWhile (tab : α) (text : List α) :
    shellField tab (text.dropWhile fun c => decide (c ≠ tab)) =
      shellField tab (cutField tab text).2 := by
  rcases dropWhile_cutField tab text with ⟨hnil, hrest⟩ | hcons
  · rw [hnil, hrest]
  · rw [hcons, shellField_cons]

/-- Separators are taken off the ends of a text exactly when it has some there. -/
theorem trim_eq_self_iff {text : List α} :
    ((text.dropWhile fun c => decide (c = tab)).reverse.dropWhile
      fun c => decide (c = tab)).reverse = text ↔
      text.head? ≠ some tab ∧ text.getLast? ≠ some tab := by
  change (text.dropWhile fun c => decide (c = tab)).rdropWhile
    (fun c => decide (c = tab)) = text ↔ _
  have hhead : text.dropWhile (fun c => decide (c = tab)) = text ↔ text.head? ≠ some tab := by
    cases text <;> simp [List.dropWhile_eq_self_iff]
  have hlast : text.rdropWhile (fun c => decide (c = tab)) = text ↔
      text.getLast? ≠ some tab := by
    rw [List.rdropWhile_eq_self_iff]
    cases text using List.reverseRecOn <;> simp
  constructor
  · intro h
    have hfront : text.dropWhile (fun c => decide (c = tab)) = text := by
      refine (List.dropWhile_sublist _).eq_of_length_le ?_
      exact (congrArg List.length h).ge.trans (List.rdropWhile_prefix _ _).length_le
    rw [hfront] at h
    exact ⟨hhead.mp hfront, hlast.mp h⟩
  · rintro ⟨hfront, hback⟩
    rw [hhead.mpr hfront, hlast.mpr hback]

end Fields

end DockerMacos
