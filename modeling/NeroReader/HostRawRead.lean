import NeroReader.RawFilterSafety
import NeroReader.Type5Write

/-!
The host's transparent reads of a Type 5 tag at the reader's raw filter. The host lays out flags, UID, block and
count in `Type5AddressedBlockCommand` and `Type5AddressedReadMultipleCommand`; the filter takes the same bytes
apart on its own. Both agree on the first block and the count, and a read passes exactly when its blocks lie in the
area the tag's description opens.
-/

namespace NeroReader.Storage

/-! ### The area of a description -/

namespace Type5Info

variable {type5 : Type5Info} {block len : Word}

/-- The description counts in blocks of four bytes, with whole blocks for the container, and reports no block count
that ends in front of the data area. -/
structure Blocked (type5 : Type5Info) : Prop where
  unit : type5.unitSize = 4
  container : 0 < (type5CcByteLen type5).toNat ∧ (type5CcByteLen type5).toNat % 4 = 0
  area : 0 < type5.dataAreaSizeBytes.toNat
  count : type5.blockCount ≠ 0 → (type5CcByteLen type5).toNat / 4 < type5.blockCount.toNat

theorem ccByteLen_le (type5 : Type5Info) : (type5CcByteLen type5).toNat ≤ 255 := by
  rw [type5CcByteLen]
  split
  · decide
  split
  · rw [byte_zeroExtend_toNat]
    exact Nat.le_of_lt_succ type5.ccLen.isLt
  split <;> decide

/-- The last block of the declared area, cut to the reported block count. -/
def lastBlock (type5 : Type5Info) : Nat :=
  let declared := (type5CcByteLen type5).toNat / 4 + ((type5.dataAreaSizeBytes.toNat + 3) / 4 - 1)
  if type5.blockCount ≠ 0 ∧ type5.blockCount.toNat ≤ declared then type5.blockCount.toNat - 1 else declared

theorem dataBlocks_eq (hunit : type5.unitSize = 4)
    (hcc : 0 < (type5CcByteLen type5).toNat ∧ (type5CcByteLen type5).toNat % 4 = 0)
    (harea : 0 < type5.dataAreaSizeBytes.toNat) :
    type5DataBlocks (type5CcByteLen type5) type5.dataAreaSizeBytes type5.unitSize type5.blockCount =
      if (type5CcByteLen type5).toNat / 4 ≤ type5.lastBlock then
        some (BitVec.ofNat 16 ((type5CcByteLen type5).toNat / 4), BitVec.ofNat 16 type5.lastBlock)
      else none := by
  have hle := ccByteLen_le type5
  have hsize := type5.dataAreaSizeBytes.isLt
  have hblocks : (BitVec.ofNat 16 ((type5.dataAreaSizeBytes.toNat + 3) / 4) : Word).toNat =
      (type5.dataAreaSizeBytes.toNat + 3) / 4 := ceilUnits_four_toNat (ceilUnits_four _)
  have hfirst : (BitVec.ofNat 16 ((type5CcByteLen type5).toNat / 4) : Word).toNat =
      (type5CcByteLen type5).toNat / 4 := by
    rw [BitVec.toNat_ofNat]
    exact Nat.mod_eq_of_lt (by change _ < 65536; omega)
  have hgeometry : ¬(type5CcByteLen type5 = 0 ∨ type5.dataAreaSizeBytes = 0 ∨ type5.unitSize ≠ type5BlockSize ∨
      (type5CcByteLen type5).toNat % type5BlockSize.toNat ≠ 0) := by
    rintro (hzero | hzero | hzero | hzero)
    · exact absurd hcc.1 (by rw [hzero]; decide)
    · exact absurd harea (by rw [hzero]; decide)
    · exact hzero hunit
    · exact hzero hcc.2
  have hsome : (BitVec.ofNat 16 ((type5.dataAreaSizeBytes.toNat + 3) / 4) : Word) ≠ 0 := by
    intro hzero
    rw [hzero] at hblocks
    change 0 = _ at hblocks
    omega
  rw [type5DataBlocks, if_neg hgeometry, show type5BlockSize = 4 from rfl, ceilUnits_four]
  dsimp only
  rw [if_neg hsome, hblocks, show (4 : Byte).toNat = 4 from rfl, hfirst, if_neg (by omega)]
  rfl

theorem lastBlock_lt (type5 : Type5Info) : type5.lastBlock < 65536 := by
  have hle := ccByteLen_le type5
  have hsize := type5.dataAreaSizeBytes.isLt
  rw [lastBlock]
  split <;> omega

theorem le_lastBlock_iff (h : type5.Blocked) (b : Nat) : b ≤ type5.lastBlock ↔ b ∈ type5.blocksToEnd := by
  have harea := h.area
  rw [blocksToEnd, Set.mem_ofPred_eq, lastBlock]
  split
  · rename_i hcut
    have hcount := h.count hcut.1
    constructor
    · intro hb
      exact ⟨by omega, fun _ => by omega⟩
    · rintro ⟨-, hb⟩
      have := hb hcut.1
      omega
  · rename_i hfull
    constructor
    · intro hb
      refine ⟨by omega, fun hne => ?_⟩
      have := Nat.lt_of_not_le fun hle => hfull ⟨hne, hle⟩
      omega
    · rintro ⟨hb, -⟩
      omega

theorem first_le_lastBlock_iff : (type5CcByteLen type5).toNat / 4 ≤ type5.lastBlock ↔
    (type5.blockCount ≠ 0 → (type5CcByteLen type5).toNat / 4 < type5.blockCount.toNat) := by
  rw [lastBlock]
  split
  · rename_i hcut
    have hpos : 0 < type5.blockCount.toNat := Nat.pos_of_ne_zero fun hzero => hcut.1 (BitVec.eq_of_toNat_eq hzero)
    constructor
    · intro hle _
      omega
    · intro hlt
      have := hlt hcut.1
      omega
  · rename_i hfull
    refine iff_of_true (by omega) fun hne => ?_
    have := Nat.lt_of_not_le fun hle => hfull ⟨hne, hle⟩
    omega

/-- The geometry `nfc_storage_type5_data_blocks` accepts. -/
theorem dataBlocks_isSome_iff : (∃ blocks, type5DataBlocks (type5CcByteLen type5) type5.dataAreaSizeBytes
    type5.unitSize type5.blockCount = some blocks) ↔ type5.Blocked := by
  constructor
  · rintro ⟨⟨first, last⟩, h⟩
    have hcc := type5DataBlocks_cc h
    have hgeometry := h
    rw [type5DataBlocks] at hgeometry
    split at hgeometry
    · cases hgeometry
    rename_i hno
    obtain ⟨-, hno⟩ := not_or.mp hno
    obtain ⟨hzero, hno⟩ := not_or.mp hno
    have hunit := not_not.mp (not_or.mp hno).1
    have harea : 0 < type5.dataAreaSizeBytes.toNat :=
      Nat.pos_of_ne_zero fun hz => hzero (BitVec.eq_of_toNat_eq hz)
    rw [dataBlocks_eq hunit hcc harea] at h
    split at h
    · rename_i horder
      exact ⟨hunit, hcc, harea, first_le_lastBlock_iff.mp horder⟩
    · cases h
  · intro h
    exact ⟨_, (dataBlocks_eq h.unit h.container h.area).trans (if_pos (first_le_lastBlock_iff.mpr h.count))⟩

/-- **The span check.** Block by block, the area's blocks and no others. -/
theorem readSpanOk_iff (hvalid : type5.ccValid = true) : type5.readSpanOk block len = true ↔
    type5.Blocked ∧ 0 < len.toNat ∧
      ∀ b, block.toNat ≤ b → b < block.toNat + (len.toNat + 3) / 4 → b ∈ type5.blocksToEnd := by
  rw [readSpanOk, hvalid, Bool.true_and]
  constructor
  · intro h
    obtain ⟨hpos, harea, hcount⟩ := type5ReadSpanOk_spec h
    rw [type5ReadSpanOk] at h
    split at h
    · rename_i hblocks _
      refine ⟨dataBlocks_isSome_iff.mp ⟨_, hblocks⟩, hpos, fun b _ hb => ⟨by omega, fun hne => ?_⟩⟩
      have := hcount hne
      omega
    · cases h
  · rintro ⟨hblocked, hpos, hin⟩
    have hlast := (dataBlocks_eq hblocked.unit hblocked.container hblocked.area).trans
      (if_pos (first_le_lastBlock_iff.mpr hblocked.count))
    have hunits := ceilUnits_four_toNat (ceilUnits_four len)
    have hend := (le_lastBlock_iff hblocked _).mpr
      (hin (block.toNat + ((len.toNat + 3) / 4 - 1)) (Nat.le_add_right _ _) (by omega))
    rw [type5ReadSpanOk, hlast, show type5BlockSize = 4 from rfl, ceilUnits_four]
    refine decide_eq_true ⟨?_, ?_, ?_⟩
    · rintro rfl
      exact Nat.lt_irrefl _ hpos
    · intro hzero
      rw [hzero] at hunits
      change 0 = _ at hunits
      omega
    · rw [hunits, BitVec.toNat_ofNat, Nat.mod_eq_of_lt (by exact lastBlock_lt type5)]
      exact hend

end Type5Info

/-! ### A read at the filter -/

namespace Tag

variable {tag : Tag} {type5 : Type5Info} {tx : Buffer Byte} {block count : Word} {extended multiple : Bool}

/-- The opcodes of the four read commands. -/
def readOpcode : Bool → Bool → Byte
  | false, false => rawT5ReadSingle
  | false, true => rawT5ReadMultiple
  | true, false => rawT5ExtReadSingle
  | true, true => rawT5ExtReadMultiple

/-- The filter takes the frame for a block command and finds this first block and this count in it. -/
def Checks (tag : Tag) (tx : Buffer Byte) (block count : Word) : Prop :=
  ∃ extended multiple offset,
    (tag.type5RawTransceiveAllowed tx).value = (tag.readCommandAllowed tx extended multiple).value ∧
    (tag.blockPayloadOffset tx).value = some offset ∧ tx.len = offset + blockFieldLen extended multiple ∧
    blockField extended multiple (tx.slice offset (blockFieldLen extended multiple)) = some (block, count)

/-- Every block of the request lies in the area of the description. -/
def InArea (type5 : Type5Info) (block count : Word) : Prop :=
  type5.Blocked ∧ ∀ b, block.toNat ≤ b → b < block.toNat + count.toNat → b ∈ type5.blocksToEnd

theorem rawReadSpanAllowed_iff (htag : tag.type5 = some type5) (hvalid : type5.ccValid = true)
    (hopen : type5.readAccessOpen = true) (hcount : 1 ≤ count.toNat ∧ count.toNat ≤ 0xFFFF / 4) :
    tag.rawReadSpanAllowed block (count * 4) = true ↔ InArea type5 block count := by
  have hbytes : (count * 4 : Word).toNat = 4 * count.toNat := by
    rw [BitVec.toNat_mul, Nat.mul_comm]
    exact Nat.mod_eq_of_lt (by change 4 * _ < 65536; omega)
  have hunits : ((count * 4 : Word).toNat + 3) / 4 = count.toNat := by omega
  have hne : (count * 4 != 0) = true := by
    rw [bne_iff_ne]
    intro hzero
    rw [hzero] at hbytes
    change 0 = _ at hbytes
    omega
  rw [rawReadSpanAllowed, htag]
  dsimp only
  rw [hne, hvalid, hopen, Bool.true_and, Bool.true_and, Bool.true_and, Type5Info.readSpanOk_iff hvalid, hunits]
  constructor
  · rintro ⟨hblocked, -, hin⟩
    exact ⟨hblocked, hin⟩
  · rintro ⟨hblocked, hin⟩
    exact ⟨hblocked, by omega, hin⟩

/-- What the filter finds is what it decides by. -/
theorem allowed_iff_of_checks (h : Checks tag tx block count) (htag : tag.type5 = some type5)
    (hvalid : type5.ccValid = true) (hopen : type5.readAccessOpen = true)
    (hcount : 1 ≤ count.toNat ∧ count.toNat ≤ readMultipleBlocksMax) :
    (tag.type5RawTransceiveAllowed tx).value = true ↔ InArea type5 block count := by
  obtain ⟨extended, multiple, offset, hread, hoffset, hlen, hfield⟩ := h
  have hmax : count.toNat ≤ 31 := hcount.2
  rw [hread, readCommandAllowed, Looked.bind_value, hoffset]
  dsimp only
  rw [if_neg (not_not.mpr hlen), Looked.bind_value, Looked.pure_value, Buffer.copy_value, blockFieldAllowed, hfield]
  dsimp only
  rw [if_neg fun hlimit => absurd hcount.2 (Nat.not_le_of_lt hlimit.2), if_neg (by omega)]
  exact rawReadSpanAllowed_iff htag hvalid hopen ⟨hcount.1, by omega⟩

/-- An addressed read command to the active tag. -/
theorem checks_of_contents (hkind : tag.kind = .type5) {flags : Byte} {field : Frame}
    (hflag : flags &&& addressFlag ≠ 0) (hfield : field.length = blockFieldLen extended multiple)
    (hspan : blockField extended multiple field = some (block, count))
    (htx : tx.contents = flags :: readOpcode extended multiple :: (tag.uidLsb ++ field)) :
    Checks tag tx block count := by
  have hlen : tx.len = 2 + (8 + blockFieldLen extended multiple) := by
    have := congrArg List.length htx
    rw [Buffer.contents, Buffer.slice_length, List.length_cons, List.length_cons, List.length_append, uidLsb_length,
      hfield] at this
    omega
  have htwo : 2 ≤ tx.len := by omega
  rw [contents_eq_cons htwo, List.cons.injEq, List.cons.injEq, hlen, Nat.add_sub_cancel_left, Buffer.slice_append]
    at htx
  obtain ⟨hfirst, hop, hrest⟩ := htx
  obtain ⟨huid, htail⟩ := List.append_inj hrest (by rw [Buffer.slice_length, uidLsb_length])
  have haddressed : (tag.addressedUidAllowed tx 2).value = true := by
    rw [addressedUidAllowed, if_pos (by omega), uidLsbMatches_iff, uidLsb_length]
    exact huid
  refine ⟨extended, multiple, 10, ?_, ?_, by omega, by rw [htail]; exact hspan⟩
  · have hkind' : ¬(tx.len < 2 ∨ tag.kind ≠ .type5) := by
      rintro (hshort | hother)
      · omega
      · exact hother hkind
    rw [type5RawTransceiveAllowed, if_neg hkind', Looked.bind_value, Buffer.loadAt_value tx htwo, hop]
    cases extended <;> cases multiple <;> rfl
  · rw [blockPayloadOffset, if_neg (by omega), Looked.bind_value, Buffer.loadAt_value tx (by omega), hfirst,
      if_pos hflag, Looked.bind_value, haddressed]
    rfl

end Tag

end NeroReader.Storage

namespace NeroReader.HostStorage

open Storage Ndef

/-! ### The host's read commands -/

def iso15693CmdReadMultiple : Byte := 0x23
def iso15693CmdExtReadMultiple : Byte := 0x33

/-- The count field says how many blocks follow the first. -/
def type5AddressedReadMultipleCommand (uidLsb : Frame) (firstBlock blockCount : Word) : Frame :=
  let countField := blockCount - 1
  if iso15693BlockAddr1ByteMax < firstBlock.toNat ∨ iso15693BlockAddr1ByteMax < countField.toNat then
    [iso15693FlagsAddressed ||| iso15693FlagProtocolExtension, iso15693CmdExtReadMultiple] ++ uidLsb ++
      [unitLow firstBlock, unitHigh firstBlock, unitLow countField, unitHigh countField]
  else type5AddressedCommand iso15693CmdReadMultiple uidLsb ++ [unitLow firstBlock, unitLow countField]

example : type5AddressedReadMultipleCommand [1, 2, 3, 4, 5, 6, 7, 8] 0x100 3 =
    [0x2A, 0x33, 1, 2, 3, 4, 5, 6, 7, 8, 0x00, 0x01, 0x02, 0x00] := by decide

/-- The frames by which the host asks for blocks: one block by the single form, and any number by the multiple form. -/
inductive HostRead (uidLsb : Frame) : Word → Word → Frame → Prop where
  | single (block : Word) : HostRead uidLsb block 1
      (type5AddressedBlockCommand iso15693CmdReadSingle iso15693CmdExtReadSingle uidLsb block)
  | multiple (block count : Word) : HostRead uidLsb block count (type5AddressedReadMultipleCommand uidLsb block count)

/-- The host's layout in the filter's terms. -/
theorem HostRead.layout {uidLsb cmd : Frame} {block count : Word} (h : HostRead uidLsb block count cmd)
    (hcount : 1 ≤ count.toNat ∧ count.toNat ≤ readMultipleBlocksMax) : ∃ flags extended multiple field,
      cmd = flags :: Tag.readOpcode extended multiple :: (uidLsb ++ field) ∧ flags &&& addressFlag ≠ 0 ∧
        field.length = Tag.blockFieldLen extended multiple ∧
        Tag.blockField extended multiple field = some (block, count) := by
  cases h with
  | single =>
      rw [type5AddressedBlockCommand]
      split
      · refine ⟨0x2A, true, false, [unitLow block, unitHigh block], rfl, by decide, rfl, ?_⟩
        exact congrArg (fun first => some (first, (1 : Word))) (bigEndian_unit block)
      · rename_i hshort
        refine ⟨0x22, false, false, [unitLow block], rfl, by decide, rfl, ?_⟩
        exact congrArg (fun first => some (first, (1 : Word))) (zeroExtend_unitLow (Nat.le_of_not_lt hshort))
  | multiple =>
      have hmore : (count - 1).toNat = count.toNat - 1 := by bv_omega
      have hback : count - 1 + 1 = count := by bv_omega
      have hmax : count.toNat ≤ 31 := hcount.2
      rw [type5AddressedReadMultipleCommand]
      split
      · refine ⟨0x2A, true, true, [unitLow block, unitHigh block, unitLow (count - 1), unitHigh (count - 1)], rfl,
          by decide, rfl, ?_⟩
        have hfields : Tag.blockField true true
            [unitLow block, unitHigh block, unitLow (count - 1), unitHigh (count - 1)] =
              if bigEndian (unitHigh (count - 1)) (unitLow (count - 1)) = 0xFFFF then none
              else some (bigEndian (unitHigh block) (unitLow block),
                bigEndian (unitHigh (count - 1)) (unitLow (count - 1)) + 1) := rfl
        have hcountField : count - 1 ≠ 0xFFFF := by
          intro heq
          rw [heq] at hmore
          change 65535 = _ at hmore
          omega
        rw [hfields, bigEndian_unit, bigEndian_unit, if_neg hcountField, hback]
      · rename_i hshort
        obtain ⟨hblock, hmoreShort⟩ := not_or.mp hshort
        refine ⟨0x22, false, true, [unitLow block, unitLow (count - 1)], rfl, by decide, rfl, ?_⟩
        have hfields : Tag.blockField false true [unitLow block, unitLow (count - 1)] =
            some ((unitLow block).zeroExtend 16, (unitLow (count - 1)).zeroExtend 16 + 1) := rfl
        rw [hfields, zeroExtend_unitLow (Nat.le_of_not_lt hblock),
          zeroExtend_unitLow (Nat.le_of_not_lt hmoreShort), hback]

/-- **Host reads at the filter.** The filter finds the block and the count the host meant, and lets the frame through
exactly when the blocks lie in the area of the description. -/
theorem hostRead_allowed_iff {tag : Tag} {type5 : Type5Info} (hkind : tag.kind = .type5)
    (htag : tag.type5 = some type5) (hvalid : type5.ccValid = true) (hopen : type5.readAccessOpen = true)
    {uidLsb cmd : Frame} (huid : type5UidLsbFirst tag.uid15.toList = .ok uidLsb) {block count : Word}
    (hcount : 1 ≤ count.toNat ∧ count.toNat ≤ readMultipleBlocksMax) (hread : HostRead uidLsb block count cmd)
    {tx : Buffer Byte} (htx : tx.contents = cmd) :
    Tag.Checks tag tx block count ∧
      ((tag.type5RawTransceiveAllowed tx).value = true ↔ Tag.InArea type5 block count) := by
  have hlsb : uidLsb = tag.uidLsb := by
    have hsize : tag.uid15.toList.length = iso15693UidLen := Vector.length_toList
    rw [type5UidLsbFirst, if_neg (not_not.mpr hsize)] at huid
    exact (Except.ok.inj huid).symm
  obtain ⟨flags, extended, multiple, field, rfl, hflag, hlen, hspan⟩ := hread.layout hcount
  rw [hlsb] at htx
  have hchecks := Tag.checks_of_contents hkind hflag hlen hspan htx
  exact ⟨hchecks, Tag.allowed_iff_of_checks hchecks htag hvalid hopen hcount⟩

/-- A container that declares 64 bytes, on a tag that reports eight blocks. -/
def shortReport : Type5Info := { type5ApplyCc [0xE1, 0x40, 0x08, 0x00] with blockSize := 4, blockCount := 8 }

def shortReportTag : Tag := ⟨.type5, none, some shortReport, #v[0xE0, 2, 3, 4, 5, 6, 7, 8]⟩

theorem hostRead_allowed_shortReport :
    Tag.Checks shortReportTag ⟨u8At [0x22, 0x23, 8, 7, 6, 5, 4, 3, 2, 0xE0, 1, 2], 12⟩ 1 3 ∧
      ((shortReportTag.type5RawTransceiveAllowed
          ⟨u8At [0x22, 0x23, 8, 7, 6, 5, 4, 3, 2, 0xE0, 1, 2], 12⟩).value = true ↔ Tag.InArea shortReport 1 3) :=
  hostRead_allowed_iff rfl rfl (by decide) (by decide)
    (show type5UidLsbFirst shortReportTag.uid15.toList = .ok [8, 7, 6, 5, 4, 3, 2, 0xE0] from rfl) (by decide)
    (.multiple 1 3) (by decide)

/-- Block 8 lies in the declared area and behind the reported block count. -/
theorem declared_block_refused : ¬∀ (tag : Tag) (type5 : Type5Info), tag.kind = .type5 → tag.type5 = some type5 →
    type5.ccValid = true → type5.readAccessOpen = true → ∀ (uidLsb cmd : Frame) (block count : Word) (tx : Buffer Byte),
    type5UidLsbFirst tag.uid15.toList = .ok uidLsb → 1 ≤ count.toNat ∧ count.toNat ≤ readMultipleBlocksMax →
    HostRead uidLsb block count cmd → tx.contents = cmd →
    4 * (block.toNat + count.toNat) ≤ (type5CcByteLen type5).toNat + type5.dataAreaSizeBytes.toNat →
    (tag.type5RawTransceiveAllowed tx).value = true := by
  intro h
  have hpass := h shortReportTag shortReport rfl rfl (by decide) (by decide) [8, 7, 6, 5, 4, 3, 2, 0xE0] _ 8 1
    ⟨u8At [0x22, 0x20, 8, 7, 6, 5, 4, 3, 2, 0xE0, 8], 11⟩ rfl (by decide) (.single 8) (by decide) (by decide)
  exact absurd hpass (by decide)

end NeroReader.HostStorage
