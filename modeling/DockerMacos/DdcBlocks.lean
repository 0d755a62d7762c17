import Mathlib.Data.UInt
import Mathlib.Data.Int.Notation

/-!
# EDID Blocks

The driver (`FB/VMsvga2.cpp`) can serve the blocks of an EDID that its property list injects.
`start` keeps a copy, padded with zeros to whole blocks; `getDDCBlock` copies one block of it to
the caller. Blocks are numbered from 1.

## Arithmetic

The end of the block is a 32-bit product of its number and the size of a block, and wraps for
block numbers from `2 ^ 25` on. The test against the length of the copy is made with the wrapped
value, so such a request may get a block that it has not asked for, or bytes outside the copy.
The arguments are `UInt32` here, as they are in the source.

## Outcomes

`DdcOutcome` tells apart what a caller sees: the request is left to the base class, a block is
copied, or the driver reads outside its copy of the EDID.

## Main definitions

* `Serveable`: a request for a block of the EDID, with a buffer that holds one.
* `DdcBlockRight`: the request gets exactly its block, or is left to the base class.

## Main results

* `startEdid_length`: the copy has the length that is kept with it.
* `ddcBlockRight_iff`: when `getDDCBlock` serves exactly the blocks of the EDID.
-/

namespace DockerMacos

/-- `m_edid` and `m_edid_size`. -/
structure Edid where
  size : UInt32
  bytes : Option (List (BitVec 8))

/-- The EDID that `start` keeps of the property `EDID`; `alloc` tells whether `IOMalloc`
succeeds. -/
def startEdid (property : Option (List (BitVec 8))) (alloc : Bool) : Edid :=
  match property with
  | none => ⟨0, none⟩
  | some data =>
      if data.length ≠ 0 ∧ data.length ≤ 256 then
        let size := (UInt32.ofNat data.length + 127) / 128 * 128
        if alloc then ⟨size, some (data ++ List.replicate (size.toNat - data.length) 0)⟩
        else ⟨0, none⟩
      else ⟨0, none⟩

/-- `kIODDCBlockTypeEDID`. -/
def ddcBlockTypeEDID : ℕ := 0

/-- The arguments of `getDDCBlock`; `data` tells whether the buffer is there. -/
structure DdcRequest where
  connectIndex : ℤ
  blockNumber : UInt32
  blockType : ℕ
  data : Bool
  length : Option ℕ

/-- What `getDDCBlock` does: it leaves the request to its base class, copies these bytes, or
reads outside its copy of the EDID. -/
inductive DdcOutcome
  | base
  | copied (block : List (BitVec 8))
  | outside (offset : UInt32)
  deriving DecidableEq

/-- The 128 bytes from `offset` on. -/
def copyBlock (bytes : List (BitVec 8)) (offset : UInt32) : DdcOutcome :=
  if offset.toNat + 128 ≤ bytes.length then .copied ((bytes.drop offset.toNat).take 128)
  else .outside offset

/-- `getDDCBlock`. -/
def Edid.getDDCBlock (e : Edid) (r : DdcRequest) : DdcOutcome :=
  match e.bytes with
  | none => .base
  | some bytes =>
      if r.connectIndex = 0 ∧ r.blockNumber ≠ 0 ∧ r.blockNumber * 128 ≤ e.size ∧
          r.blockType = ddcBlockTypeEDID ∧ r.data = true ∧ r.length.any (128 ≤ ·) = true then
        copyBlock bytes ((r.blockNumber - 1) * 128)
      else .base

/-- A request is left to the base class, or gets exactly its block, which lies in the
EDID. -/
def DdcBlockRight (e : Edid) (r : DdcRequest) : Prop :=
  e.getDDCBlock r = .base ∨
    ∃ bytes, e.bytes = some bytes ∧ 1 ≤ r.blockNumber.toNat ∧
      128 * r.blockNumber.toNat ≤ e.size.toNat ∧ e.size.toNat = bytes.length ∧
      e.getDDCBlock r =
        .copied (bytes.extract (128 * (r.blockNumber.toNat - 1)) (128 * r.blockNumber.toNat))

/-- The request is for a block of an EDID on the first connection, and comes with a buffer
that holds one. -/
def DdcRequest.Serveable (r : DdcRequest) : Prop :=
  r.connectIndex = 0 ∧ r.blockType = ddcBlockTypeEDID ∧ r.data = true ∧
    r.length.any (128 ≤ ·) = true

instance (r : DdcRequest) : Decidable r.Serveable := inferInstanceAs (Decidable (_ ∧ _))

/-! ### The copy -/

/-- The copy is a whole number of blocks, two at most. -/
theorem startEdid_length {property : Option (List (BitVec 8))} {alloc : Bool}
    {bytes : List (BitVec 8)} (h : (startEdid property alloc).bytes = some bytes) :
    (startEdid property alloc).size.toNat = bytes.length ∧
      (bytes.length = 128 ∨ bytes.length = 256) := by
  cases property with
  | none => cases h
  | some data =>
    rw [startEdid] at h ⊢
    split at h
    · next hlen =>
      have hsize : ((UInt32.ofNat data.length + 127) / 128 * 128).toNat =
          (data.length + 127) / 128 * 128 := by
        simp only [UInt32.toNat_mul, UInt32.toNat_div, UInt32.toNat_add, UInt32.toNat_ofNat',
          UInt32.reduceToNat]
        omega
      rw [if_pos hlen]
      cases alloc with
      | false => cases h
      | true =>
        obtain rfl := Option.some.inj h
        simp only [if_true, List.length_append, List.length_replicate, hsize]
        omega
    · cases h

/-! ### The request -/

/-- The end of a block, as the driver computes it. -/
theorem blockEnd_toNat (n : UInt32) : (n * 128).toNat = n.toNat * 128 % 2 ^ 32 := by
  rw [UInt32.toNat_mul]
  rfl

/-- The start of a block whose number is not zero. -/
theorem blockStart_toNat {n : UInt32} (h : n ≠ 0) :
    ((n - 1) * 128).toNat = (n.toNat - 1) * 128 % 2 ^ 32 := by
  have hpos : 1 ≤ n.toNat := by
    by_contra hzero
    exact h (UInt32.toNat_inj.mp (by simpa using hzero))
  have hle : (1 : UInt32) ≤ n := UInt32.le_iff_toNat_le.mpr hpos
  rw [blockEnd_toNat, UInt32.toNat_sub_of_le _ _ hle]
  rfl

/-- **`getDDCBlock`.** It leaves a request to its base class or copies the block with this
number, unless the request is serveable, its block number is `2 ^ 25` at least, and the
remainder by `2 ^ 25` is the number of a block or zero. -/
theorem ddcBlockRight_iff (property : Option (List (BitVec 8))) (alloc : Bool)
    (r : DdcRequest) :
    DdcBlockRight (startEdid property alloc) r ↔
      ¬((startEdid property alloc).bytes.isSome = true ∧ r.Serveable ∧
        2 ^ 25 ≤ r.blockNumber.toNat ∧
        128 * (r.blockNumber.toNat % 2 ^ 25) ≤ (startEdid property alloc).size.toNat) := by
  cases hbytes : (startEdid property alloc).bytes with
  | none => exact iff_of_true (.inl (by rw [Edid.getDDCBlock, hbytes])) (by simp)
  | some bytes =>
    obtain ⟨hsize, hlen⟩ := startEdid_length hbytes
    have hlt := r.blockNumber.toNat_lt
    have hend := blockEnd_toNat r.blockNumber
    simp only [DdcBlockRight, Edid.getDDCBlock, hbytes, DdcRequest.Serveable]
    split
    · next hpass =>
      obtain ⟨hconnect, hne, hle, htype, hdata, hlength⟩ := hpass
      have hstart := blockStart_toNat hne
      rw [UInt32.le_iff_toNat_le, hend] at hle
      have hpos : 1 ≤ r.blockNumber.toNat := by
        by_contra hzero
        exact hne (UInt32.toNat_inj.mp (by simpa using hzero))
      by_cases hwrap : 2 ^ 25 ≤ r.blockNumber.toNat
      · -- a wrapped end passes the check, whatever is copied
        refine iff_of_false ?_ (not_not_intro ⟨rfl, ⟨hconnect, htype, hdata, hlength⟩, hwrap,
          by omega⟩)
        rintro (hbase | ⟨_, _, _, hinside, _⟩)
        · rw [copyBlock] at hbase
          split at hbase <;> cases hbase
        · omega
      · refine iff_of_true (.inr ⟨bytes, rfl, hpos, by omega, hsize, ?_⟩) fun h => hwrap h.2.2.1
        have hin : ((r.blockNumber - 1) * 128).toNat = 128 * (r.blockNumber.toNat - 1) := by omega
        rw [copyBlock, if_pos (by omega), List.extract_eq_take_drop, hin]
        congr 2
        omega
    · next hfail =>
      refine iff_of_true (.inl rfl) ?_
      rintro ⟨-, ⟨hconnect, htype, hdata, hlength⟩, hwrap, hle⟩
      refine hfail ⟨hconnect, ?_, ?_, htype, hdata, hlength⟩
      · rintro hzero
        rw [hzero] at hwrap
        exact absurd hwrap (by decide)
      · rw [UInt32.le_iff_toNat_le, hend]
        omega

/-- Block `2 ^ 25` is read in front of the EDID. -/
theorem not_ddcBlockRight_wrapped :
    ¬DdcBlockRight (startEdid (some (List.replicate 128 0)) true)
      { connectIndex := 0, blockNumber := 0x2000000, blockType := ddcBlockTypeEDID,
        data := true, length := some 128 } := by
  have houtside : (startEdid (some (List.replicate 128 0)) true).getDDCBlock
      { connectIndex := 0, blockNumber := 0x2000000, blockType := ddcBlockTypeEDID,
        data := true, length := some 128 } = .outside 0xFFFFFF80 := by decide +kernel
  rintro (h | ⟨_, _, _, _, _, h⟩)
  · rw [houtside] at h
    cases h
  · rw [houtside] at h
    cases h

end DockerMacos
