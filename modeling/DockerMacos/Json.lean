import Mathlib.Data.List.Basic
import Mathlib.Data.Int.Notation

/-!
# JSON

A parser for JSON texts as lists of characters. `Json.value` takes a value off the front of a
text; its first argument bounds the nesting, and `Json.parse` gives it the length of the text.

## Reading

Each function takes what it is named for off the front of a text, and returns it with the rest,
or nothing if the text does not begin with one. A control character is no part of a string, and
a surrogate is only in a pair; integers have no leading zeros.

## Writing

Texts are written with `Json.quote` and `Json.objectText`. A written object has the texts of its
values in it, whatever these are, so that it can be nested.

## Main results

* `Json.parse_quote`: a written string is read back.
* `Json.parse_objectText`: a written object is read back, if its values are.
-/

namespace DockerMacos

/-- A number: its sign, the integer, the digits of the fraction and the exponent. -/
structure JsonNumber where
  negative : Bool
  int : ℕ
  frac : List Char
  exp : ℤ
  deriving DecidableEq

inductive JsonValue
  | null
  | bool (b : Bool)
  | number (n : JsonNumber)
  | string (s : List Char)
  | array (vs : List JsonValue)
  | object (ms : List (List Char × JsonValue))

/-- A natural number. -/
def JsonNumber.ofNat (n : ℕ) : JsonNumber := ⟨false, n, [], 0⟩

namespace Json

/-- White space. -/
def isWs (c : Char) : Bool := c ∈ [' ', '\t', '\n', '\r']

/-- The text behind its leading white space. -/
def skipWs (text : List Char) : List Char := text.dropWhile isWs

/-! ### Strings -/

/-- The value of a hexadecimal digit. -/
def hexDigit (c : Char) : Option ℕ :=
  if '0' ≤ c ∧ c ≤ '9' then some (c.toNat - '0'.toNat)
  else if 'a' ≤ c ∧ c ≤ 'f' then some (c.toNat - 'a'.toNat + 10)
  else if 'A' ≤ c ∧ c ≤ 'F' then some (c.toNat - 'A'.toNat + 10)
  else none

/-- Four hexadecimal digits. -/
def codeUnit : List Char → Option (ℕ × List Char)
  | a :: b :: c :: d :: rest => do
      let a ← hexDigit a
      let b ← hexDigit b
      let c ← hexDigit c
      let d ← hexDigit d
      some (((a * 16 + b) * 16 + c) * 16 + d, rest)
  | _ => none

/-- The character that an escape stands for. -/
def escape : List Char → Option (Char × List Char)
  | '"' :: rest => some ('"', rest)
  | '\\' :: rest => some ('\\', rest)
  | '/' :: rest => some ('/', rest)
  | 'b' :: rest => some ('\x08', rest)
  | 'f' :: rest => some ('\x0c', rest)
  | 'n' :: rest => some ('\n', rest)
  | 'r' :: rest => some ('\r', rest)
  | 't' :: rest => some ('\t', rest)
  | 'u' :: rest => do
      let (unit, rest) ← codeUnit rest
      if 0xD800 ≤ unit ∧ unit < 0xDC00 then
        match rest with
        | '\\' :: 'u' :: rest => do
            let (low, rest) ← codeUnit rest
            if 0xDC00 ≤ low ∧ low < 0xE000 then
              some (.ofNat (0x10000 + (unit - 0xD800) * 0x400 + (low - 0xDC00)), rest)
            else none
        | _ => none
      else if 0xDC00 ≤ unit ∧ unit < 0xE000 then none
      else some (.ofNat unit, rest)
  | _ => none

/-- The characters of a string, behind its opening quote, at most so many. -/
def characters : ℕ → List Char → Option (List Char × List Char)
  | 0, _ => none
  | _ + 1, [] => none
  | n + 1, c :: rest =>
      if c = '"' then some ([], rest)
      else if c = '\\' then do
        let (x, rest) ← escape rest
        let (s, rest) ← characters n rest
        some (x :: s, rest)
      else if c.toNat < 0x20 then none
      else do
        let (s, rest) ← characters n rest
        some (c :: s, rest)

/-- A string, behind its opening quote. -/
def string (text : List Char) : Option (List Char × List Char) :=
  characters (text.length + 1) text

/-! ### Numbers -/

/-- One digit or more. -/
def digits (text : List Char) : Option (List Char × List Char) :=
  if text.takeWhile Char.isDigit = [] then none
  else some (text.takeWhile Char.isDigit, text.dropWhile Char.isDigit)

/-- An integer without leading zeros. -/
def integer : List Char → Option (ℕ × List Char)
  | '0' :: rest => some (0, rest)
  | text => do
      let (ds, rest) ← digits text
      some (Nat.ofDigitChars 10 ds 0, rest)

def fraction : List Char → Option (List Char × List Char)
  | '.' :: rest => digits rest
  | rest => some ([], rest)

/-- The digits of an exponent, behind its sign. -/
def exponentDigits (negative : Bool) (text : List Char) : Option (ℤ × List Char) := do
  let (ds, rest) ← digits text
  some (if negative then -(Nat.ofDigitChars 10 ds 0 : ℤ) else Nat.ofDigitChars 10 ds 0, rest)

def exponent : List Char → Option (ℤ × List Char)
  | [] => some (0, [])
  | c :: rest =>
      if c = 'e' ∨ c = 'E' then
        match rest with
        | '-' :: rest => exponentDigits true rest
        | '+' :: rest => exponentDigits false rest
        | rest => exponentDigits false rest
      else some (0, c :: rest)

/-- A number behind its sign. -/
def unsigned (negative : Bool) (text : List Char) : Option (JsonNumber × List Char) := do
  let (int, rest) ← integer text
  let (frac, rest) ← fraction rest
  let (exp, rest) ← exponent rest
  some (⟨negative, int, frac, exp⟩, rest)

def number : List Char → Option (JsonNumber × List Char)
  | '-' :: rest => unsigned true rest
  | text => unsigned false text

/-! ### Values -/

/-- Items with commas between them, up to a closing bracket, at most so many. -/
def items {α : Type} (item : List Char → Option (α × List Char)) (close : Char) :
    ℕ → List Char → Option (List α × List Char)
  | 0, _ => none
  | n + 1, text => do
      let (x, rest) ← item text
      match skipWs rest with
      | [] => none
      | c :: rest =>
          if c = close then some ([x], rest)
          else if c = ',' then do
            let (xs, rest) ← items item close n rest
            some (x :: xs, rest)
          else none

/-- Items in brackets, behind the opening one; there may be none. -/
def bracketed {α : Type} (item : List Char → Option (α × List Char)) (close : Char)
    (text : List Char) : Option (List α × List Char) :=
  if (skipWs text).head? = some close then some ([], (skipWs text).tail)
  else items item close (text.length + 1) text

/-- A member of an object. -/
def member (value : List Char → Option (JsonValue × List Char)) (text : List Char) :
    Option ((List Char × JsonValue) × List Char) :=
  match skipWs text with
  | '"' :: rest => do
      let (key, rest) ← string rest
      match skipWs rest with
      | ':' :: rest => do
          let (v, rest) ← value rest
          some ((key, v), rest)
      | _ => none
  | _ => none

/-- The text behind a word that it begins with. -/
def word (w text : List Char) : Option (List Char) :=
  if w.isPrefixOf text then some (text.drop w.length) else none

/-- A value. -/
def value : ℕ → List Char → Option (JsonValue × List Char)
  | 0, _ => none
  | n + 1, text =>
      match skipWs text with
      | '"' :: rest => (string rest).map fun (s, rest) => (.string s, rest)
      | '{' :: rest => (bracketed (member (value n)) '}' rest).map fun (ms, rest) =>
          (.object ms, rest)
      | '[' :: rest => (bracketed (value n) ']' rest).map fun (vs, rest) => (.array vs, rest)
      | 'n' :: rest => (word "ull".toList rest).map fun rest => (.null, rest)
      | 't' :: rest => (word "rue".toList rest).map fun rest => (.bool true, rest)
      | 'f' :: rest => (word "alse".toList rest).map fun rest => (.bool false, rest)
      | text => (number text).map fun (x, rest) => (.number x, rest)

/-- A text is one value with white space around it. -/
def parse (text : List Char) : Option JsonValue := do
  let (v, rest) ← value (text.length + 1) text
  if skipWs rest = [] then some v else none

/-! ### Writing -/

/-- A character of a written string. -/
def escapeChar (c : Char) : List Char :=
  if c = '"' then ['\\', '"']
  else if c = '\\' then ['\\', '\\']
  else if c = '\n' then ['\\', 'n']
  else if c = '\r' then ['\\', 'r']
  else if c = '\t' then ['\\', 't']
  else [c]

/-- A character that can be written: it has an escape, or is no control character. -/
def Writable (c : Char) : Prop := c = '\n' ∨ c = '\r' ∨ c = '\t' ∨ 0x20 ≤ c.toNat

instance (c : Char) : Decidable (Writable c) := inferInstanceAs (Decidable (_ ∨ _))

/-- A written string. -/
def quote (s : List Char) : List Char := '"' :: (s.flatMap escapeChar ++ ['"'])

/-- A written member: its key, the text of its value, and the value. -/
structure Member where
  key : List Char
  text : List Char
  value : JsonValue

def Member.written (m : Member) : List Char := quote m.key ++ ':' :: m.text

/-- A written object. -/
def objectText (ms : List Member) : List Char :=
  '{' :: ([','].intercalate (ms.map Member.written) ++ ['}'])

/-- The object that is written. -/
def objectValue (ms : List Member) : JsonValue := .object (ms.map fun m => (m.key, m.value))

section Rules

variable {s rest : List Char} {n : ℕ}

/-! ### Reading strings -/

/-- An escape of two characters. -/
theorem characters_escape {e x : Char} (h : escape (e :: rest) = some (x, rest)) :
    characters (n + 1) ('\\' :: e :: rest) =
      (characters n rest).map fun (s, rest) => (x :: s, rest) := by
  simp only [characters, h, Char.reduceEq, if_false, if_true, Option.bind_eq_bind,
    Option.bind_some]
  cases characters n rest <;> rfl

/-- One written character. -/
theorem characters_escapeChar {c : Char} (hc : Writable c) :
    characters (n + 1) (escapeChar c ++ rest) =
      (characters n rest).map fun (s, rest) => (c :: s, rest) := by
  rw [escapeChar]
  split_ifs with hquote hback hnl hcr htab
  · subst hquote
    exact characters_escape rfl
  · subst hback
    exact characters_escape rfl
  · subst hnl
    exact characters_escape rfl
  · subst hcr
    exact characters_escape rfl
  · subst htab
    exact characters_escape rfl
  · have hprint : ¬c.toNat < 0x20 := by
      rcases hc with rfl | rfl | rfl | hc
      · exact absurd rfl hnl
      · exact absurd rfl hcr
      · exact absurd rfl htab
      · omega
    simp only [List.singleton_append, characters, if_neg hquote, if_neg hback, if_neg hprint]
    cases characters n rest <;> rfl

/-- A written string, behind its opening quote. -/
theorem characters_flatMap (hs : ∀ c ∈ s, Writable c) (hn : s.length < n) :
    characters n (s.flatMap escapeChar ++ '"' :: rest) = some (s, rest) := by
  induction s generalizing n with
  | nil =>
    obtain ⟨n, rfl⟩ := Nat.exists_eq_succ_of_ne_zero (by simp at hn; omega : n ≠ 0)
    rfl
  | cons c s ih =>
    rw [List.length_cons] at hn
    obtain ⟨n, rfl⟩ := Nat.exists_eq_succ_of_ne_zero (by omega : n ≠ 0)
    rw [List.flatMap_cons, List.append_assoc, Nat.succ_eq_add_one,
      characters_escapeChar (hs c List.mem_cons_self),
      ih (fun c hc => hs c (List.mem_cons_of_mem _ hc)) (by omega)]
    rfl

/-- Writing makes a string no shorter. -/
theorem length_flatMap_escapeChar (s : List Char) : s.length ≤ (s.flatMap escapeChar).length := by
  induction s with
  | nil => exact Nat.zero_le _
  | cons c s ih =>
    have hc : 1 ≤ (escapeChar c).length := by
      rw [escapeChar]
      split_ifs <;> simp
    rw [List.flatMap_cons, List.length_append, List.length_cons]
    omega

/-- A string that has been written is read back. -/
theorem string_quote (hs : ∀ c ∈ s, Writable c) :
    string (s.flatMap escapeChar ++ '"' :: rest) = some (s, rest) := by
  refine characters_flatMap hs ?_
  have := length_flatMap_escapeChar s
  rw [List.length_append]
  omega

/-- A written string is read back. -/
theorem value_quote (hs : ∀ c ∈ s, Writable c) :
    value (n + 1) (quote s ++ rest) = some (.string s, rest) := by
  have hskip : skipWs (quote s ++ rest) = '"' :: (s.flatMap escapeChar ++ '"' :: rest) := by
    simp [quote, skipWs, isWs]
  simp only [value, hskip, string_quote hs]
  rfl

/-! ### Reading numbers -/

/-- A positive number does not begin with a zero. -/
theorem toDigits_head {k : ℕ} (hk : 0 < k) :
    ∃ d ds, Nat.toDigits 10 k = d :: ds ∧ d ≠ '0' := by
  induction k using Nat.strongRecOn with
  | _ k ih =>
    by_cases hlt : k < 10
    · have hdigit : ∀ k < 10, 0 < k → k.digitChar ≠ '0' := by decide
      exact ⟨k.digitChar, [], Nat.toDigits_of_lt_base hlt, hdigit k hlt hk⟩
    · obtain ⟨d, ds, hd, hne⟩ := ih (k / 10) (by omega) (by omega)
      refine ⟨d, ds ++ [(k % 10).digitChar], ?_, hne⟩
      rw [Nat.toDigits_of_base_le (by decide) (by omega), hd]
      rfl

/-- The digits of a written natural number are those before a comma or a closing brace. -/
theorem digits_toDigits (k : ℕ) (hrest : rest.head? = some ',' ∨ rest.head? = some '}') :
    digits (Nat.toDigits 10 k ++ rest) = some (Nat.toDigits 10 k, rest) := by
  have hall : ∀ c ∈ Nat.toDigits 10 k, Char.isDigit c = true := fun c hc =>
    Nat.isDigit_of_mem_toDigits (by decide) (Nat.le_refl 10) hc
  obtain ⟨c, cs, rfl, hc⟩ : ∃ c cs, rest = c :: cs ∧ Char.isDigit c = false := by
    cases rest with
    | nil => simp at hrest
    | cons c cs =>
      refine ⟨c, cs, rfl, ?_⟩
      rcases hrest with h | h <;> (cases h; rfl)
  rw [digits, List.takeWhile_append_of_pos hall, List.dropWhile_append_of_pos hall]
  simp [hc, Nat.toDigits_ne_nil]

/-- Behind the integer of a written natural number there is nothing of it. -/
theorem unsigned_toDigits (k : ℕ) (hrest : rest.head? = some ',' ∨ rest.head? = some '}') :
    unsigned false (Nat.toDigits 10 k ++ rest) = some (.ofNat k, rest) := by
  have hint : integer (Nat.toDigits 10 k ++ rest) = some (k, rest) := by
    rcases Nat.eq_zero_or_pos k with rfl | hk
    · rfl
    · obtain ⟨d, ds, hd, hne⟩ := toDigits_head hk
      have hdigits := digits_toDigits k hrest
      have hval := Nat.ofDigitChars_ten_toDigits (n := k)
      rw [hd] at hdigits hval ⊢
      rw [integer]
      · rw [hdigits]
        simp [hval]
      · rintro cs hcs
        exact hne (List.cons.inj hcs).1
  obtain ⟨c, cs, rfl, hfrac, hexp⟩ : ∃ c cs, rest = c :: cs ∧
      fraction (c :: cs) = some ([], c :: cs) ∧ exponent (c :: cs) = some (0, c :: cs) := by
    cases rest with
    | nil => simp at hrest
    | cons c cs =>
      refine ⟨c, cs, rfl, ?_⟩
      rcases hrest with h | h <;> (cases h; exact ⟨rfl, rfl⟩)
  simp [unsigned, hint, hfrac, hexp, JsonNumber.ofNat]

/-- A written natural number is read back, when what follows is a comma or a closing
brace. -/
theorem value_toDigits (k : ℕ) (hrest : rest.head? = some ',' ∨ rest.head? = some '}') :
    value (n + 1) (Nat.toDigits 10 k ++ rest) = some (.number (.ofNat k), rest) := by
  obtain ⟨d, ds, hd⟩ := List.exists_cons_of_ne_nil (Nat.toDigits_ne_nil (n := k) (b := 10))
  have hdigit : d.isDigit = true := Nat.isDigit_of_mem_toDigits (by decide) (Nat.le_refl 10)
    (hd ▸ List.mem_cons_self)
  have hunsigned := unsigned_toDigits k hrest
  rw [hd, List.cons_append] at hunsigned ⊢
  have hskip : skipWs (d :: (ds ++ rest)) = d :: (ds ++ rest) := by
    refine List.dropWhile_cons_of_neg ?_
    intro hws
    simp only [isWs, List.mem_cons, List.not_mem_nil, or_false, decide_eq_true_eq] at hws
    rcases hws with rfl | rfl | rfl | rfl <;> cases hdigit
  have hnumber : number (d :: (ds ++ rest)) = some (.ofNat k, rest) := by
    rw [number]
    · exact hunsigned
    · rintro cs hcs
      rw [(List.cons.inj hcs).1] at hdigit
      cases hdigit
  rw [value, hskip]
  split
  all_goals try
    rename_i heq
    rw [(List.cons.inj heq).1] at hdigit
    cases hdigit
  rw [hnumber]
  rfl

/-! ### Reading objects -/

/-- Commas separate at most one item more than there are characters. -/
theorem length_le_intercalate (ls : List (List Char)) :
    ls.length ≤ ([','].intercalate ls).length + 1 := by
  induction ls with
  | nil => exact Nat.zero_le _
  | cons l ls ih =>
    rcases ls with _ | ⟨l', ls⟩
    · simp
    · have hcons : [','].intercalate (l :: l' :: ls) =
          l ++ ',' :: [','].intercalate (l' :: ls) := by
        simp [List.intercalate]
      rw [hcons, List.length_append]
      simp only [List.length_cons] at ih ⊢
      omega

/-- Written items with commas between them, when each is read back in front of a comma or the
closing bracket. -/
theorem items_intercalate {α : Type} (item : List Char → Option (α × List Char)) {close : Char}
    (hclose : isWs close = false) (hcomma : close ≠ ',') (xs : List (List Char × α))
    (rest : List Char)
    (hxs : ∀ x ∈ xs, ∀ rest, rest.head? = some ',' ∨ rest.head? = some close →
      item (x.1 ++ rest) = some (x.2, rest)) (hne : xs ≠ []) (hn : xs.length ≤ n) :
    items item close n ([','].intercalate (xs.map Prod.fst) ++ close :: rest) =
      some (xs.map Prod.snd, rest) := by
  induction xs generalizing n with
  | nil => exact absurd rfl hne
  | cons x xs ih =>
    obtain ⟨n, rfl⟩ := Nat.exists_eq_succ_of_ne_zero (by simp at hn; omega : n ≠ 0)
    rcases xs with _ | ⟨y, ys⟩
    · have hx := hxs x List.mem_cons_self (close :: rest) (.inr rfl)
      have hskip : skipWs (close :: rest) = close :: rest :=
        List.dropWhile_cons_of_neg (by simp [hclose])
      simp [items, hx, hskip, List.intercalate]
    · have htail : [','].intercalate ((x :: y :: ys).map Prod.fst) ++ close :: rest =
          x.1 ++ ',' :: ([','].intercalate ((y :: ys).map Prod.fst) ++ close :: rest) := by
        simp [List.intercalate]
      have hx := hxs x List.mem_cons_self
        (',' :: ([','].intercalate ((y :: ys).map Prod.fst) ++ close :: rest)) (.inl rfl)
      have hrest := ih (fun z hz => hxs z (List.mem_cons_of_mem _ hz)) (by simp)
        (by simpa using hn)
      have hskip : ∀ cs, skipWs (',' :: cs) = ',' :: cs := fun cs => rfl
      rw [List.map_cons] at hrest
      rw [htail, items, hx]
      simp [hskip, Ne.symm hcomma, hrest]

/-- A written member is read back, if its value is. -/
theorem member_written {m : Member} (hkey : ∀ c ∈ m.key, Writable c)
    (hvalue : value n (m.text ++ rest) = some (m.value, rest)) :
    member (value n) (m.written ++ rest) = some ((m.key, m.value), rest) := by
  have htext : m.written ++ rest =
      '"' :: (m.key.flatMap escapeChar ++ '"' :: ':' :: (m.text ++ rest)) := by
    simp [Member.written, quote]
  have hskip : ∀ cs, skipWs ('"' :: cs) = '"' :: cs := fun cs => rfl
  have hskip' : ∀ cs, skipWs (':' :: cs) = ':' :: cs := fun cs => rfl
  rw [htext, member, hskip]
  simp [string_quote hkey, hskip', hvalue]

/-- A written object is read back, if the values of its members are, in front of a comma or
a closing brace. -/
theorem value_objectText {ms : List Member} (hne : ms ≠ [])
    (hkeys : ∀ m ∈ ms, ∀ c ∈ m.key, Writable c)
    (hvalues : ∀ m ∈ ms, ∀ rest, rest.head? = some ',' ∨ rest.head? = some '}' →
      value n (m.text ++ rest) = some (m.value, rest)) :
    value (n + 1) (objectText ms ++ rest) = some (objectValue ms, rest) := by
  have hbody : objectText ms ++ rest =
      '{' :: ([','].intercalate (ms.map Member.written) ++ '}' :: rest) := by
    simp [objectText]
  have hitems : items (member (value n)) '}'
      (([','].intercalate (ms.map Member.written) ++ '}' :: rest).length + 1)
      ([','].intercalate (ms.map Member.written) ++ '}' :: rest) =
      some (ms.map fun m => (m.key, m.value), rest) := by
    have hwritten := items_intercalate (member (value n)) rfl (by decide : '}' ≠ ',')
      (ms.map fun m => (m.written, (m.key, m.value))) rest
      (n := ([','].intercalate (ms.map Member.written) ++ '}' :: rest).length + 1)
    rw [List.map_map, List.map_map, List.length_map] at hwritten
    refine hwritten ?_ (by simpa using hne) ?_
    · intro x hx rest' hrest'
      obtain ⟨m, hm, rfl⟩ := List.mem_map.mp hx
      exact member_written (hkeys m hm) (hvalues m hm rest' hrest')
    · have hlen := length_le_intercalate (ms.map Member.written)
      rw [List.length_map] at hlen
      rw [List.length_append]
      omega
  obtain ⟨m, ms', rfl⟩ := List.exists_cons_of_ne_nil hne
  have hhead : ∃ cs, [','].intercalate ((m :: ms').map Member.written) ++ '}' :: rest =
      '"' :: cs := by
    cases ms' <;> exact ⟨_, rfl⟩
  obtain ⟨cs, hcs⟩ := hhead
  have hskip : ∀ cs, skipWs ('{' :: cs) = '{' :: cs := fun cs => rfl
  have hskip' : ∀ cs, skipWs ('"' :: cs) = '"' :: cs := fun cs => rfl
  rw [hcs] at hitems
  rw [hbody, hcs, value, hskip]
  simp only [bracketed, hskip', List.head?_cons]
  rw [if_neg (by decide), hitems]
  rfl

/-- A text that is a value and nothing else. -/
theorem parse_of_value {text : List Char} {v : JsonValue}
    (h : value (text.length + 1) text = some (v, [])) : parse text = some v := by
  rw [parse, h]
  rfl

/-- **A written string** is read back as a text. -/
theorem parse_quote (hs : ∀ c ∈ s, Writable c) : parse (quote s) = some (.string s) := by
  refine parse_of_value ?_
  have h : value ((quote s).length + 1) (quote s ++ []) = some (.string s, []) := value_quote hs
  rwa [List.append_nil] at h

/-- **A written object** is read back as a text. -/
theorem parse_objectText {ms : List Member} (hne : ms ≠ [])
    (hkeys : ∀ m ∈ ms, ∀ c ∈ m.key, Writable c)
    (hvalues : ∀ m ∈ ms, ∀ n rest, rest.head? = some ',' ∨ rest.head? = some '}' →
      value (n + 1) (m.text ++ rest) = some (m.value, rest)) :
    parse (objectText ms) = some (objectValue ms) := by
  refine parse_of_value ?_
  obtain ⟨n, hn⟩ : ∃ n, (objectText ms).length = n + 1 := ⟨_, rfl⟩
  rw [hn]
  have h : value (n + 1 + 1) (objectText ms ++ []) = some (objectValue ms, []) :=
    value_objectText hne hkeys fun m hm => hvalues m hm n
  rwa [List.append_nil] at h

end Rules

end Json

end DockerMacos
