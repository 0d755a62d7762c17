import Mathlib.Algebra.Order.Group.Nat
import Mathlib.Data.Int.Cast.Basic
import Mathlib.Data.Nat.Find

/-!
# Bitmaps of Ids

Arrays of machine words whose set bits are the ids in use: `find_bit_in_array32`,
`find_bit_in_array64` and `mask_array64` of `AC/VMsvga2Accel.cpp`, for words of any width.
`bitAt` reads an array bit by bit, and every function has one lemma that says what all the
bits are afterwards.

## The search

The functions look for a word that is not full, take its lowest clear bit alone and compute the
place of that bit by a binary search (`log_2_32`). The lowest clear bit of `x` is
`~x & (x + 1)`.

## The mask

`mask_array64` sets a range: a head loop goes bit by bit up to the first whole word, a middle
loop word by word, and a tail loop bit by bit to the end. The two ends are computed so that a
range without a whole word skips the middle loop.

## Main results

* `findBitInArray_cases`: the search finds the lowest clear bit and sets it, or all are set.
* `bitAt_maskArray`: the head, middle and tail loops set the bits of the range, no others.
-/

namespace DockerMacos

variable {w : ℕ}

/-! ### Words -/

/-- One step of the binary search of `log_2_32`. -/
def log2Step (mask : BitVec w) (shift : ℕ) (s : BitVec w × ℕ) : BitVec w × ℕ :=
  if s.1 &&& mask ≠ 0 then (s.1 >>> shift, s.2 ||| shift) else s

/-- `log_2_32`: the place of the highest bit, or `-1`. -/
def log2_32 (x : BitVec 32) : ℤ :=
  let (x, y) := log2Step 0xFFFF0000 16 (x, 0)
  let (x, y) := log2Step 0xFF00 8 (x, y)
  let (x, y) := log2Step 0xF0 4 (x, y)
  let (x, y) := log2Step 0xC 2 (x, y)
  let (x, y) := log2Step 0x2 1 (x, y)
  if x &&& 1 = 0 then -1 else y

/-- `log_2_64`, whose two halves are combined by a bitwise or. -/
def log2_64 (x : BitVec 64) : ℤ :=
  let (x, y) := log2Step 0xFFFFFFFF00000000 32 (x, 0)
  let low := log2_32 (x.setWidth 32)
  if low < 0 then -1 else (y ||| low.toNat : ℕ)

/-- The search of `log_2_32` finds the only bit of a power of two. -/
theorem log2_32_twoPow : ∀ k < 32, log2_32 (BitVec.twoPow 32 k) = k := by decide

/-- So does `log_2_64`: the or of its halves is a sum there. -/
theorem log2_64_twoPow : ∀ k < 64, log2_64 (BitVec.twoPow 64 k) = k := by decide

/-- `~x & (x + 1)`: the lowest clear bit of `x` alone. -/
def lowestClear (x : BitVec w) : BitVec w := ~~~x &&& (x + 1)

/-- The lowest clear bit is that with no clear one below it. -/
theorem getLsbD_lowestClear (x : BitVec w) (i : ℕ) :
    (lowestClear x).getLsbD i =
      (decide (i < w) && !x.getLsbD i && decide (∀ j < i, x.getLsbD j = true)) := by
  have hneg : x + 1 = -(~~~x) := by
    rw [BitVec.neg_eq_not_add, BitVec.not_not, BitVec.ofNat_eq_ofNat]
  rw [lowestClear, hneg, BitVec.getLsbD_and, BitVec.getLsbD_neg, BitVec.getLsbD_not]
  by_cases hi : i < w
  · have hlower : (∃ j < i, (~~~x).getLsbD j = true) ↔ ¬ ∀ j < i, x.getLsbD j = true := by
      simp only [BitVec.getLsbD_not, not_forall, Bool.and_eq_true, decide_eq_true_eq,
        Bool.not_eq_true', exists_prop]
      refine exists_congr fun j => and_congr_right fun hj => ?_
      simp only [Bool.not_eq_true, and_iff_right_iff_imp]
      omega
    simp only [hi, decide_true, Bool.true_and, hlower, decide_not]
    cases x.getLsbD i <;> cases decide (∀ j < i, x.getLsbD j = true) <;> rfl
  · simp [hi]

/-- Where the lowest clear bit is at `k`, it is alone. -/
theorem lowestClear_eq_twoPow {x : BitVec w} {k : ℕ} (hk : k < w) (hclear : x.getLsbD k = false)
    (hlower : ∀ j < k, x.getLsbD j = true) : lowestClear x = BitVec.twoPow w k := by
  refine BitVec.eq_of_getLsbD_eq fun i hi => ?_
  rw [getLsbD_lowestClear, BitVec.getLsbD_twoPow]
  rcases lt_trichotomy i k with hik | rfl | hki
  · simp only [hlower i hik, Bool.not_true, Bool.and_false, Bool.false_and]
    simp only [Ne.symm hik.ne, decide_false, Bool.and_false]
  · simp only [hk, hclear, decide_true, Bool.not_false, Bool.and_self, Bool.true_and,
      decide_eq_true_eq]
    exact hlower
  · have hsome : ¬ ∀ j < i, x.getLsbD j = true := fun h => by
      rw [h k hki] at hclear
      cases hclear
    simp only [hsome, hki.ne, decide_false, Bool.and_false]

/-- Where all bits are set, no bit is left. -/
theorem lowestClear_eq_zero {x : BitVec w} (hall : ∀ j < w, x.getLsbD j = true) :
    lowestClear x = 0 := by
  refine BitVec.eq_of_getLsbD_eq fun i hi => ?_
  rw [getLsbD_lowestClear, hall i hi]
  simp

/-- Where not all bits are set, one is the lowest clear one. -/
theorem exists_lowest {x : BitVec w} (h : ¬ ∀ j < w, x.getLsbD j = true) :
    ∃ k < w, x.getLsbD k = false ∧ ∀ j < k, x.getLsbD j = true := by
  have hex : ∃ k, k < w ∧ x.getLsbD k = false := by
    simpa only [not_forall, Bool.not_eq_true, exists_prop] using h
  classical
  refine ⟨Nat.find hex, (Nat.find_spec hex).1, (Nat.find_spec hex).2, fun j hj => ?_⟩
  have hmin := Nat.find_min hex hj
  have hlt : j < w := hj.trans (Nat.find_spec hex).1
  simpa only [hlt, true_and, Bool.not_eq_false] using hmin

/-! ### Arrays of words -/

/-- Bit `i` of an array of words. -/
def bitAt (array : List (BitVec w)) (i : ℕ) : Bool := (array.getD (i / w) 0).getLsbD (i % w)

/-- The bits of the first word. -/
theorem bitAt_cons_of_lt {x : BitVec w} {xs : List (BitVec w)} {i : ℕ} (hi : i < w) :
    bitAt (x :: xs) i = x.getLsbD i := by
  rw [bitAt, Nat.div_eq_of_lt hi, Nat.mod_eq_of_lt hi, List.getD_cons_zero]

/-- The bits behind the first word. -/
theorem bitAt_cons_add (hw : 0 < w) (x : BitVec w) (xs : List (BitVec w)) (i : ℕ) :
    bitAt (x :: xs) (w + i) = bitAt xs i := by
  rw [bitAt, Nat.add_div_left i hw, Nat.add_mod_left, List.getD_cons_succ, bitAt]

/-- The bits behind the first `n` words. -/
theorem bitAt_drop (array : List (BitVec w)) (n i : ℕ) (hw : 0 < w) :
    bitAt (array.drop n) i = bitAt array (w * n + i) := by
  rw [bitAt, bitAt, Nat.mul_add_div hw, Nat.mul_add_mod_self_left, List.getD_eq_getElem?_getD,
    List.getElem?_drop, ← List.getD_eq_getElem?_getD]

/-- The words before the hint, and behind it what a search from the hint leaves. -/
theorem bitAt_take_append {array rest : List (BitVec w)} {n : ℕ} (hw : 0 < w)
    (hn : n ≤ array.length) (i : ℕ) :
    bitAt (array.take n ++ rest) i =
      if i < w * n then bitAt array i else bitAt rest (i - w * n) := by
  have hlen : (array.take n).length = n := List.length_take_of_le hn
  split
  · rename_i hi
    have hdiv : i / w < n := Nat.div_lt_of_lt_mul hi
    rw [bitAt, bitAt, List.getD_eq_getElem?_getD, List.getElem?_append_left (hlen.symm ▸ hdiv),
      List.getElem?_take_of_lt hdiv, ← List.getD_eq_getElem?_getD]
  · rename_i hi
    obtain ⟨j, rfl⟩ := Nat.exists_eq_add_of_le (not_lt.mp hi)
    rw [bitAt, Nat.mul_add_div hw, Nat.mul_add_mod_self_left, List.getD_eq_getElem?_getD,
      List.getElem?_append_right (hlen.le.trans (Nat.le_add_right _ _)), hlen,
      Nat.add_sub_cancel_left,
      ← List.getD_eq_getElem?_getD, Nat.add_sub_cancel_left, bitAt]

/-! ### The search -/

/-- `find_bit_in_array32` and `find_bit_in_array64`: `-1` when there is no clear bit. -/
def findBitInArray (log2 : BitVec w → ℤ) : List (BitVec w) → ℤ × List (BitVec w)
  | [] => (-1, [])
  | x :: xs =>
      if lowestClear x = 0 then
        let (r, ys) := findBitInArray log2 xs
        (if r < 0 then r else w + r, x :: ys)
      else (log2 (lowestClear x), (x ||| lowestClear x) :: xs)

/-- **The search** finds the lowest clear bit and sets it, or all bits are set. -/
theorem findBitInArray_cases {log2 : BitVec w → ℤ} (hw : 0 < w)
    (hlog : ∀ k < w, log2 (BitVec.twoPow w k) = k) (array : List (BitVec w)) :
    (findBitInArray log2 array = (-1, array) ∧ ∀ i < w * array.length, bitAt array i = true) ∨
      ∃ (k : ℕ) (array' : List (BitVec w)), findBitInArray log2 array = ((k : ℤ), array') ∧
        k < w * array.length ∧
        bitAt array k = false ∧ (∀ j < k, bitAt array j = true) ∧
        array'.length = array.length ∧ ∀ i, bitAt array' i = (decide (i = k) || bitAt array i) := by
  induction array with
  | nil => exact Or.inl ⟨rfl, fun i hi => absurd hi (Nat.not_lt_zero i)⟩
  | cons x xs ih =>
      rw [findBitInArray]
      by_cases hall : ∀ j < w, x.getLsbD j = true
      · -- the first word is full
        rw [if_pos (lowestClear_eq_zero hall)]
        have hsplit : ∀ i, i < w ∨ ∃ j, i = w + j := fun i => by
          rcases Nat.lt_or_ge i w with hi | hi
          · exact Or.inl hi
          · exact Or.inr (Nat.exists_eq_add_of_le hi)
        have hlen : w * (x :: xs).length = w + w * xs.length := by
          rw [List.length_cons, Nat.mul_succ, Nat.add_comm]
        rcases ih with ⟨heq, hfull⟩ | ⟨k, ys, heq, hk, hclear, hlower, hys, hbits⟩
        · refine Or.inl ⟨by rw [heq]; rfl, fun i hi => ?_⟩
          rcases hsplit i with hiw | ⟨j, rfl⟩
          · rw [bitAt_cons_of_lt hiw]
            exact hall i hiw
          · rw [bitAt_cons_add hw]
            exact hfull j (by omega)
        · refine Or.inr ⟨w + k, x :: ys, ?_, by omega, ?_, fun j hj => ?_, ?_, fun i => ?_⟩
          · have hnonneg : ¬ (k : ℤ) < 0 := by omega
            rw [heq]
            simp only [hnonneg, if_false, Int.natCast_add]
          · rw [bitAt_cons_add hw]
            exact hclear
          · rcases hsplit j with hjw | ⟨j, rfl⟩
            · rw [bitAt_cons_of_lt hjw]
              exact hall j hjw
            · rw [bitAt_cons_add hw]
              exact hlower j (by omega)
          · rw [List.length_cons, hys, List.length_cons]
          · rcases hsplit i with hiw | ⟨j, rfl⟩
            · have hne : ¬ i = w + k := by omega
              rw [bitAt_cons_of_lt hiw, bitAt_cons_of_lt hiw, decide_eq_false hne, Bool.false_or]
            · rw [bitAt_cons_add hw, bitAt_cons_add hw, hbits j]
              simp only [Nat.add_left_cancel_iff]
      · -- the lowest clear bit is in the first word
        obtain ⟨k, hk, hclear, hlower⟩ := exists_lowest hall
        have hlow := lowestClear_eq_twoPow hk hclear hlower
        have hne : ¬ lowestClear x = 0 := by
          intro hzero
          have hbit : (lowestClear x).getLsbD k = true := by
            rw [hlow, BitVec.getLsbD_twoPow]
            simp only [hk, decide_true, Bool.and_self]
          rw [hzero] at hbit
          simp at hbit
        rw [if_neg hne, hlow, hlog k hk]
        refine Or.inr ⟨k, _, rfl, ?_, ?_, fun j hj => ?_, rfl, fun i => ?_⟩
        · rw [List.length_cons, Nat.mul_succ]
          omega
        · rw [bitAt_cons_of_lt hk]
          exact hclear
        · rw [bitAt_cons_of_lt (hj.trans hk)]
          exact hlower j hj
        · rcases Nat.lt_or_ge i w with hi | hi
          · rw [bitAt_cons_of_lt hi, bitAt_cons_of_lt hi, BitVec.getLsbD_or,
              BitVec.getLsbD_twoPow, Bool.or_comm]
            simp only [hk, decide_true, Bool.true_and, eq_comm]
          · obtain ⟨j, rfl⟩ := Nat.exists_eq_add_of_le hi
            have hne' : ¬ w + j = k := by omega
            rw [bitAt_cons_add hw, bitAt_cons_add hw, decide_eq_false hne', Bool.false_or]

/-! ### Single bits and ranges -/

/-- `array[i >> 6] |= 1 << (i & 63)`. -/
def setBit (array : List (BitVec w)) (i : ℕ) : List (BitVec w) :=
  array.modify (i / w) (· ||| BitVec.twoPow w (i % w))

/-- `array[i >> 6] &= ~(1 << (i & 63))`. -/
def clearBit (array : List (BitVec w)) (i : ℕ) : List (BitVec w) :=
  array.modify (i / w) (· &&& ~~~BitVec.twoPow w (i % w))

/-- A word that a change of another word leaves alone. -/
theorem getD_modify_of_ne {array : List (BitVec w)} {f : BitVec w → BitVec w} {m n : ℕ}
    (h : m ≠ n) : (array.modify m f).getD n 0 = array.getD n 0 := by
  simp only [List.getD_eq_getElem?_getD, List.getElem?_modify, h, if_false, Option.map_eq_map,
    Option.map_id']

/-- The word that is changed. -/
theorem getD_modify_self {array : List (BitVec w)} {f : BitVec w → BitVec w} {n : ℕ}
    (h : n < array.length) : (array.modify n f).getD n 0 = f (array.getD n 0) := by
  simp only [List.getD_eq_getElem?_getD, List.getElem?_modify, if_true,
    List.getElem?_eq_getElem h, Option.map_eq_map, Option.map_some, Option.getD_some]

/-- Setting a bit keeps the number of words. -/
@[simp] theorem length_setBit (array : List (BitVec w)) (i : ℕ) :
    (setBit array i).length = array.length := List.length_modify ..

/-- So does clearing one. -/
@[simp] theorem length_clearBit (array : List (BitVec w)) (i : ℕ) :
    (clearBit array i).length = array.length := List.length_modify ..

/-- Two bits of one word are the same bit when their places in it are. -/
theorem eq_of_div_mod {i j : ℕ} (hdiv : i / w = j / w) (hmod : i % w = j % w) : i = j := by
  rw [← Nat.div_add_mod i w, hdiv, hmod, Nat.div_add_mod]

/-- Afterwards that bit is set, all others are as they were. -/
theorem bitAt_setBit {array : List (BitVec w)} {i : ℕ} (hw : 0 < w)
    (hi : i < w * array.length) (j : ℕ) :
    bitAt (setBit array i) j = (decide (j = i) || bitAt array j) := by
  have hword : i / w < array.length := Nat.div_lt_of_lt_mul hi
  rw [bitAt, setBit]
  by_cases hdiv : i / w = j / w
  · rw [← hdiv, getD_modify_self hword, BitVec.getLsbD_or, BitVec.getLsbD_twoPow, Bool.or_comm,
      bitAt, hdiv]
    simp only [Nat.mod_lt i hw, decide_true, Bool.true_and]
    have hiff : i % w = j % w ↔ j = i := by
      constructor
      · exact fun h => (eq_of_div_mod hdiv h).symm
      · exact fun h => by rw [h]
    simp only [hiff]
  · have hne : ¬ j = i := fun h => hdiv (by rw [h])
    rw [getD_modify_of_ne hdiv, decide_eq_false hne, Bool.false_or, bitAt]

/-- Afterwards that bit is clear, all others are as they were. -/
theorem bitAt_clearBit {array : List (BitVec w)} {i : ℕ} (hw : 0 < w)
    (hi : i < w * array.length) (j : ℕ) :
    bitAt (clearBit array i) j = (!decide (j = i) && bitAt array j) := by
  have hword : i / w < array.length := Nat.div_lt_of_lt_mul hi
  rw [bitAt, clearBit]
  by_cases hdiv : i / w = j / w
  · rw [← hdiv, getD_modify_self hword, BitVec.getLsbD_and, BitVec.getLsbD_not,
      BitVec.getLsbD_twoPow, Bool.and_comm, bitAt, hdiv]
    simp only [Nat.mod_lt i hw, Nat.mod_lt j hw, decide_true, Bool.true_and]
    have hiff : i % w = j % w ↔ j = i := by
      constructor
      · exact fun h => (eq_of_div_mod hdiv h).symm
      · exact fun h => by rw [h]
    simp only [hiff]
  · have hne : ¬ j = i := fun h => hdiv (by rw [h])
    rw [getD_modify_of_ne hdiv, decide_eq_false hne, Bool.not_false, Bool.true_and, bitAt]

/-- The loop that sets the bits from `first` on, one by one, before `past`. -/
def setBits (array : List (BitVec w)) (first past : ℕ) : List (BitVec w) :=
  (List.range' first (past - first)).foldl setBit array

/-- The loop that sets whole words. -/
def fillWords (array : List (BitVec w)) (first count : ℕ) : List (BitVec w) :=
  (List.range' first count).foldl (fun array n => array.set n (BitVec.allOnes w)) array

/-- `mask_array64`: the bits from `maskStart` on before `maskEnd` are set, by a head loop up to
the first whole word, a middle loop over whole words and a tail loop. -/
def maskArray (array : List (BitVec w)) (maskStart maskEnd : ℕ) : List (BitVec w) :=
  let firstFull := (maskStart + (w - 1)) / w * w
  let pastFull := maskEnd / w * w
  let past := if maskEnd ≥ firstFull then firstFull else maskEnd
  let array := setBits array maskStart past
  let array :=
    if pastFull > firstFull then fillWords array (firstFull / w) ((pastFull - firstFull) / w)
    else array
  setBits array (if pastFull < past then past else pastFull) maskEnd

/-- Setting several bits keeps the number of words. -/
theorem length_foldl_setBit (l : List ℕ) (array : List (BitVec w)) :
    (l.foldl setBit array).length = array.length := by
  induction l generalizing array with
  | nil => rfl
  | cons i l ih => rw [List.foldl_cons, ih, length_setBit]

/-- So does setting those of a range. -/
@[simp] theorem length_setBits (array : List (BitVec w)) (first past : ℕ) :
    (setBits array first past).length = array.length := length_foldl_setBit ..

/-- The bits of the list are set, all others are as they were. -/
theorem bitAt_foldl_setBit (hw : 0 < w) (l : List ℕ) (array : List (BitVec w))
    (hl : ∀ i ∈ l, i < w * array.length) (j : ℕ) :
    bitAt (l.foldl setBit array) j = (decide (j ∈ l) || bitAt array j) := by
  induction l generalizing array with
  | nil => simp
  | cons i l ih =>
      have hi := hl i (List.mem_cons_self ..)
      rw [List.foldl_cons, ih (setBit array i) fun k hk => by
        rw [length_setBit]
        exact hl k (List.mem_cons_of_mem _ hk), bitAt_setBit hw hi]
      simp only [List.mem_cons, Bool.decide_or]
      cases decide (j = i) <;> cases decide (j ∈ l) <;> rfl

/-- The bits of the range are set, all others are as they were. -/
theorem bitAt_setBits {array : List (BitVec w)} {first past : ℕ} (hw : 0 < w)
    (hpast : past ≤ w * array.length) (j : ℕ) :
    bitAt (setBits array first past) j =
      (decide (first ≤ j ∧ j < past) || bitAt array j) := by
  rw [setBits, bitAt_foldl_setBit hw]
  · have hmem : j ∈ List.range' first (past - first) ↔ first ≤ j ∧ j < past := by
      rw [List.mem_range'_1]
      omega
    simp only [hmem]
  · intro i hi
    rw [List.mem_range'_1] at hi
    omega

/-- The first word is filled, then the rest. -/
theorem fillWords_succ (array : List (BitVec w)) (first count : ℕ) :
    fillWords array first (count + 1) =
      fillWords (array.set first (BitVec.allOnes w)) (first + 1) count := by
  rw [fillWords, List.range'_succ, List.foldl_cons, fillWords]

/-- The bits of whole words are set, all others are as they were. -/
theorem bitAt_fillWords {array : List (BitVec w)} {first count : ℕ} (hw : 0 < w)
    (hpast : first + count ≤ array.length) (j : ℕ) :
    bitAt (fillWords array first count) j =
        (decide (w * first ≤ j ∧ j < w * (first + count)) || bitAt array j) ∧
      (fillWords array first count).length = array.length := by
  induction count generalizing array first with
  | zero =>
      have hno : ¬ (w * first ≤ j ∧ j < w * (first + 0)) := by
        rw [Nat.add_zero]
        omega
      refine ⟨?_, rfl⟩
      rw [decide_eq_false hno, Bool.false_or]
      rfl
  | succ count ih =>
      have hlen : (array.set first (BitVec.allOnes w)).length = array.length :=
        List.length_set ..
      obtain ⟨hbit, hlength⟩ : _ ∧ (fillWords (array.set first (BitVec.allOnes w)) (first + 1)
          count).length = _ := ih (by omega)
      rw [fillWords_succ]
      refine ⟨?_, by rw [hlength, hlen]⟩
      rw [hbit]
      have hword : bitAt (array.set first (BitVec.allOnes w)) j =
          (decide (w * first ≤ j ∧ j < w * (first + 1)) || bitAt array j) := by
        have hin : j / w = first ↔ w * first ≤ j ∧ j < w * (first + 1) := by
          rw [Nat.div_eq_iff hw, Nat.mul_succ, Nat.mul_comm first w]
          omega
        rw [bitAt, bitAt, List.getD_eq_getElem?_getD, List.getElem?_set]
        by_cases hj : first = j / w
        · rw [if_pos hj, if_pos (by omega), Option.getD_some, BitVec.getLsbD_allOnes,
            decide_eq_true (hin.mp hj.symm), decide_eq_true (Nat.mod_lt j hw), Bool.true_or]
        · rw [if_neg hj, decide_eq_false (fun h => hj (hin.mpr h).symm), Bool.false_or,
            List.getD_eq_getElem?_getD]
      rw [hword, ← Bool.or_assoc, ← Bool.decide_or]
      congr 2
      rw [eq_iff_iff]
      have h₁ : w * (first + 1) = w * first + w := Nat.mul_succ ..
      have h₂ : w * (first + 1 + count) = w * (first + (count + 1)) := by
        rw [Nat.add_assoc, Nat.add_comm 1 count]
      have h₃ : w * (first + 1) ≤ w * (first + (count + 1)) :=
        Nat.mul_le_mul_left w (by omega)
      omega

/-- **The mask**: the three loops set the bits of the range and no others. -/
theorem bitAt_maskArray {array : List (BitVec w)} {maskStart maskEnd : ℕ} (hw : 0 < w)
    (hend : maskEnd ≤ w * array.length) (j : ℕ) :
    bitAt (maskArray array maskStart maskEnd) j =
      (decide (maskStart ≤ j ∧ j < maskEnd) || bitAt array j) := by
  rw [maskArray]
  -- the first whole word starts at or behind the range, the last one ends inside it
  have hfirst : maskStart ≤ (maskStart + (w - 1)) / w * w := by
    have := Nat.lt_div_mul_add (a := maskStart + (w - 1)) hw
    omega
  have hlast : maskEnd / w * w ≤ maskEnd := Nat.div_mul_le_self ..
  generalize (maskStart + (w - 1)) / w = f at hfirst ⊢
  generalize maskEnd / w = p at hlast ⊢
  by_cases hhead : maskEnd ≥ f * w
  · rw [if_pos hhead]
    by_cases hmiddle : p * w > f * w
    · have hfp : f < p := Nat.lt_of_mul_lt_mul_right hmiddle
      have hcount : (p * w - f * w) / w = p - f := by
        rw [← Nat.sub_mul, Nat.mul_div_cancel _ hw]
      have hpast : f + (p - f) ≤ (setBits array maskStart (f * w)).length := by
        rw [length_setBits]
        have : w * p ≤ w * array.length := by
          rw [Nat.mul_comm w p]
          omega
        have := Nat.le_of_mul_le_mul_left this hw
        omega
      rw [if_pos hmiddle, if_neg (not_lt.mpr hmiddle.le), Nat.mul_div_cancel _ hw, hcount]
      obtain ⟨hfill, hlength⟩ := bitAt_fillWords hw hpast j
      rw [bitAt_setBits hw (by rw [hlength, length_setBits]; exact hend), hfill,
        bitAt_setBits hw (by omega), ← Bool.or_assoc, ← Bool.or_assoc, ← Bool.decide_or,
        ← Bool.decide_or]
      congr 2
      rw [eq_iff_iff, Nat.add_sub_cancel' hfp.le, Nat.mul_comm w f, Nat.mul_comm w p]
      omega
    · rw [if_neg hmiddle, bitAt_setBits hw (by rw [length_setBits]; exact hend),
        bitAt_setBits hw (by omega), ← Bool.or_assoc, ← Bool.decide_or]
      congr 2
      rw [eq_iff_iff]
      split <;> omega
  · have hmiddle : ¬ p * w > f * w := by omega
    rw [if_neg hhead, if_neg hmiddle, bitAt_setBits hw (by rw [length_setBits]; exact hend),
      bitAt_setBits hw hend, ← Bool.or_assoc, ← Bool.decide_or]
    congr 2
    rw [eq_iff_iff]
    split <;> omega

/-- `mask_array64` keeps the number of words. -/
theorem length_maskArray (hw : 0 < w) {array : List (BitVec w)} {maskStart maskEnd : ℕ}
    (hend : maskEnd ≤ w * array.length) :
    (maskArray array maskStart maskEnd).length = array.length := by
  rw [maskArray]
  simp only [length_setBits]
  split
  · rename_i hmiddle
    have hle : maskEnd / w * w ≤ w * array.length := (Nat.div_mul_le_self ..).trans hend
    have hp : maskEnd / w ≤ array.length :=
      Nat.le_of_mul_le_mul_left (by rwa [Nat.mul_comm] at hle) hw
    have hfp : (maskStart + (w - 1)) / w < maskEnd / w := Nat.lt_of_mul_lt_mul_right hmiddle
    rw [Nat.mul_div_cancel _ hw, ← Nat.sub_mul, Nat.mul_div_cancel _ hw,
      (bitAt_fillWords hw (by rw [length_setBits]; omega) 0).2, length_setBits]
  · rw [length_setBits]

end DockerMacos
