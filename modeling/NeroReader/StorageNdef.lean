import NeroReader.IsoDepFrame

/-!
The storage view of a tag: what its capability container declares, which pages or blocks belong to
its NDEF data area, and the span checks that the reader makes before it touches them. Sizes and
addresses are 16-bit words as in the source; the areas themselves are sets of unit numbers.
-/

namespace NeroReader.Storage

abbrev Word := BitVec 16

/-! ### Constants -/

def type2CcPage : Nat := 3
def type2FirstDataPage : Nat := 4
def type2UnitSize : Byte := 4
def type2StorageMaxPage : Nat := 225
def type5BlockSize : Byte := 4
def t5tCcLenShort : Nat := 4
def t5tCcLenExtended : Nat := 8
def forumCcMagic : Byte := 0xE1
def t5tCcMagic8Byte : Byte := 0xE2

/-! ### Tag descriptions -/

/-- A Type 2 capability container, as far as the storage commands read it. -/
structure Type2Info where
  ccValid : Bool
  readAccessOpen : Bool
  writeAccessOpen : Bool
  dataAreaSizeBytes : Word
  deriving DecidableEq, Repr

/-- The capability container fields of a Type 5 tag. -/
structure Type5Cc where
  cc : Frame
  ccLen : Byte
  ccValid : Bool
  mappingMajor : Byte
  mappingMinor : Byte
  dataAreaSizeBytes : Word
  access : Byte
  readAccessOpen : Bool
  writeAccessOpen : Bool
  deriving DecidableEq, Repr

/-- A Type 5 tag: its capability container and its system information. -/
structure Type5Info extends Type5Cc where
  blockSize : Byte
  blockCount : Word
  deriving DecidableEq, Repr

def clearedCc : Type5Cc := ⟨List.replicate 8 0, 0, false, 0, 0, 0, 0, false, false⟩

def bigEndian (hi lo : Byte) : Word := hi ++ lo

theorem bigEndian_toNat (hi lo : Byte) : (bigEndian hi lo).toNat = 256 * hi.toNat + lo.toNat := by
  rw [bigEndian, BitVec.toNat_append, ← Nat.shiftLeft_add_eq_or_of_lt lo.isLt, Nat.shiftLeft_eq,
    Nat.mul_comm]

/-- `nfc_tag_type5_apply_cc`: a container with a known magic number and an area that 16 bits can
count in bytes. A zero MLEN declares the eight-byte form. -/
def type5ApplyCc (cc : Frame) : Type5Cc :=
  if cc.length < t5tCcLenShort then clearedCc
  else if u8At cc 0 ≠ forumCcMagic ∧ u8At cc 0 ≠ t5tCcMagic8Byte then clearedCc
  else if u8At cc 2 = 0 ∧ cc.length < t5tCcLenExtended then clearedCc
  else
    let ccBytes := if u8At cc 2 ≠ 0 then t5tCcLenShort else t5tCcLenExtended
    let sizeUnits : Word :=
      if u8At cc 2 ≠ 0 then (u8At cc 2).zeroExtend 16 else bigEndian (u8At cc 6) (u8At cc 7)
    if sizeUnits = 0 ∨ 0xFFFF / 8 < sizeUnits.toNat then clearedCc
    else
      { cc := (cc.take ccBytes ++ List.replicate 8 0).take 8
        ccLen := BitVec.ofNat 8 ccBytes
        ccValid := true
        mappingMajor := u8At cc 1 >>> 6
        mappingMinor := (u8At cc 1 >>> 4) &&& 0x03
        dataAreaSizeBytes := sizeUnits * 8
        access := u8At cc 1 &&& 0x0F
        readAccessOpen := u8At cc 1 &&& 0x0C == 0
        writeAccessOpen := u8At cc 1 &&& 0x03 == 0 }

/-- `reader_tags_type5_cc_byte_len`. -/
def type5CcByteLen (type5 : Type5Info) : Word :=
  if type5.ccValid = false then 0
  else if type5.ccLen ≠ 0 then type5.ccLen.zeroExtend 16
  else if u8At type5.cc 2 = 0 then 8 else 4

inductive TagKind where
  | none
  | type2
  | type4
  | type5
  deriving DecidableEq, Repr

/-- The tag the reader is working with. A description is what reading the tag's capability container
and system information brought, none when the reader could not read it. -/
structure Tag where
  kind : TagKind
  type2 : Option Type2Info
  type5 : Option Type5Info
  uid15 : Vector Byte 8
  deriving DecidableEq, Repr

/-! ### Spans -/

def ceilUnits (byteLen : Word) (unitSize : Byte) : Option Word :=
  if unitSize = 0 then none
  else some (BitVec.ofNat 16 ((byteLen.toNat + unitSize.toNat - 1) / unitSize.toNat))

def type2LastPage (dataAreaSize : Word) : Option Word :=
  if dataAreaSize = 0 then none
  else
    match ceilUnits dataAreaSize type2UnitSize with
    | none => none
    | some pages =>
        if pages = 0 then none
        else
          let lastPage := BitVec.ofNat 16 type2CcPage + pages
          some (if type2StorageMaxPage < lastPage.toNat then BitVec.ofNat 16 type2StorageMaxPage
            else lastPage)

def type2ReadSpanOk (dataAreaSize page len : Word) : Bool :=
  match type2LastPage dataAreaSize, ceilUnits len type2UnitSize with
  | some lastPage, some pages =>
      decide (len ≠ 0 ∧ pages ≠ 0 ∧ type2CcPage ≤ page.toNat ∧
        page.toNat + (pages.toNat - 1) ≤ lastPage.toNat)
  | _, _ => false

def type2WriteSpanOk (dataAreaSize page len : Word) : Bool :=
  if len = 0 ∨ len.toNat % type2UnitSize.toNat ≠ 0 ∨ page.toNat < type2FirstDataPage then false
  else type2ReadSpanOk dataAreaSize page len

/-- `nfc_storage_type5_data_blocks`: first and last block of the data area. -/
def type5DataBlocks (ccBytes dataAreaSize : Word) (blockSize : Byte) (blockCount : Word) :
    Option (Word × Word) :=
  if ccBytes = 0 ∨ dataAreaSize = 0 ∨ blockSize ≠ type5BlockSize ∨
      ccBytes.toNat % type5BlockSize.toNat ≠ 0 then none
  else
    match ceilUnits dataAreaSize type5BlockSize with
    | none => none
    | some dataBlocks =>
        if dataBlocks = 0 then none
        else
          let first := BitVec.ofNat 16 (ccBytes.toNat / type5BlockSize.toNat)
          let lastBlock := first.toNat + (dataBlocks.toNat - 1)
          if 0xFFFF < lastBlock then none
          else
            let lastBlock :=
              if blockCount ≠ 0 ∧ blockCount.toNat ≤ lastBlock then blockCount.toNat - 1 else lastBlock
            if first.toNat ≤ lastBlock then some (first, BitVec.ofNat 16 lastBlock) else none

def type5ReadSpanOk (ccBytes dataAreaSize : Word) (blockSize : Byte) (blockCount block len : Word) :
    Bool :=
  match type5DataBlocks ccBytes dataAreaSize blockSize blockCount, ceilUnits len type5BlockSize with
  | some (_, last), some blocks =>
      decide (len ≠ 0 ∧ blocks ≠ 0 ∧ block.toNat + (blocks.toNat - 1) ≤ last.toNat)
  | _, _ => false

def type5WriteSpanOk (ccBytes dataAreaSize : Word) (blockSize : Byte) (blockCount block len : Word) :
    Bool :=
  match type5DataBlocks ccBytes dataAreaSize blockSize blockCount, ceilUnits len type5BlockSize with
  | some (first, last), some blocks =>
      decide (len ≠ 0 ∧ len.toNat % type5BlockSize.toNat = 0 ∧ blocks ≠ 0 ∧
        first.toNat ≤ block.toNat ∧ block.toNat + (blocks.toNat - 1) ≤ last.toNat)
  | _, _ => false

namespace Type2Info

variable (type2 : Type2Info)

def readSpanOk (page len : Word) : Bool :=
  type2.ccValid && type2ReadSpanOk type2.dataAreaSizeBytes page len

def updateSpanOk (page : Word) (len : Byte) : Bool :=
  type2.ccValid && type2.writeAccessOpen &&
    type2WriteSpanOk type2.dataAreaSizeBytes page (len.zeroExtend 16)

/-- The pages of the declared data area, within the reader's page limit. -/
def dataPages : Set Nat :=
  {page | 4 ≤ page ∧ page ≤ 3 + (type2.dataAreaSizeBytes.toNat + 3) / 4 ∧ page ≤ 225}

/-- The pages from the capability container to the end of the data area. -/
def pagesToEnd : Set Nat :=
  {page | 3 ≤ page ∧ page ≤ 3 + (type2.dataAreaSizeBytes.toNat + 3) / 4 ∧ page ≤ 225}

end Type2Info

namespace Type5Info

variable (type5 : Type5Info)

def unitSize : Byte := if type5.blockSize = 0 then type5BlockSize else type5.blockSize

def readSpanOk (block len : Word) : Bool :=
  type5.ccValid && type5ReadSpanOk (type5CcByteLen type5) type5.dataAreaSizeBytes type5.unitSize
    type5.blockCount block len

def updateSpanOk (block : Word) (len : Byte) : Bool :=
  type5.ccValid && type5.writeAccessOpen && type5WriteSpanOk (type5CcByteLen type5)
    type5.dataAreaSizeBytes type5.unitSize type5.blockCount block (len.zeroExtend 16)

/-- The blocks up to the end of the declared data area, within the reported block count. -/
def blocksToEnd : Set Nat :=
  {block | block < (type5CcByteLen type5).toNat / 4 + (type5.dataAreaSizeBytes.toNat + 3) / 4 ∧
    (type5.blockCount ≠ 0 → block < type5.blockCount.toNat)}

/-- The blocks of the declared data area. -/
def dataBlocks : Set Nat := {block | (type5CcByteLen type5).toNat / 4 ≤ block} ∩ type5.blocksToEnd

end Type5Info

/-! ### What an accepted span says -/

theorem byte_zeroExtend_toNat (b : Byte) : (b.zeroExtend 16 : Word).toNat = b.toNat := by
  rw [BitVec.toNat_setWidth]
  exact Nat.mod_eq_of_lt (Nat.lt_of_lt_of_le b.isLt (by decide))

theorem ceilUnits_four (len : Word) :
    ceilUnits len 4 = some (BitVec.ofNat 16 ((len.toNat + 3) / 4)) := by
  have h4 : (4 : Byte).toNat = 4 := rfl
  rw [ceilUnits, if_neg (by decide), h4]
  rfl

theorem ceilUnits_four_toNat {len units : Word} (h : ceilUnits len 4 = some units) :
    units.toNat = (len.toNat + 3) / 4 := by
  have hlen := len.isLt
  rw [ceilUnits_four] at h
  cases h
  rw [BitVec.toNat_ofNat]
  exact Nat.mod_eq_of_lt (by omega)

theorem type2LastPage_toNat {dataAreaSize lastPage : Word} (h : type2LastPage dataAreaSize = some lastPage) :
    lastPage.toNat = min (3 + (dataAreaSize.toNat + 3) / 4) 225 := by
  have harea := dataAreaSize.isLt
  rw [type2LastPage] at h
  split at h
  · cases h
  split at h
  · cases h
  rename_i pages hpages
  have hcount := ceilUnits_four_toNat hpages
  dsimp only at h
  split at h
  · cases h
  have hsum : (BitVec.ofNat 16 type2CcPage + pages).toNat = 3 + pages.toNat := by
    rw [BitVec.toNat_add]
    exact Nat.mod_eq_of_lt (by rw [hcount]; change 3 + _ < 65536; omega)
  rw [hsum] at h
  cases h
  split
  · rename_i hmax
    rw [type2StorageMaxPage] at hmax ⊢
    rw [← hcount]
    exact (Nat.min_eq_right (by omega : 225 ≤ 3 + pages.toNat)).symm
  · rename_i hmax
    rw [type2StorageMaxPage] at hmax
    rw [hsum, ← hcount]
    exact (Nat.min_eq_left (by omega)).symm

/-- **Type 2 spans.** Every unit of an accepted span lies between the container page and the end of
the data area. -/
theorem type2ReadSpanOk_spec {dataAreaSize page len : Word} (h : type2ReadSpanOk dataAreaSize page len = true) :
    0 < len.toNat ∧ 3 ≤ page.toNat ∧
      page.toNat + ((len.toNat + 3) / 4 - 1) ≤ 3 + (dataAreaSize.toNat + 3) / 4 ∧
      page.toNat + ((len.toNat + 3) / 4 - 1) ≤ 225 := by
  rw [type2ReadSpanOk] at h
  split at h
  · rename_i lastPage pages hlast hpages
    have hl := type2LastPage_toNat hlast
    have hp := ceilUnits_four_toNat hpages
    obtain ⟨hlen, -, hpage, hend⟩ := of_decide_eq_true h
    rw [hp, hl] at hend
    have hpos : len.toNat ≠ 0 := fun hz => hlen (BitVec.eq_of_toNat_eq hz)
    exact ⟨Nat.pos_of_ne_zero hpos, hpage, by omega, by omega⟩
  · cases h

theorem type5DataBlocks_spec {ccBytes dataAreaSize first last blockCount : Word} {blockSize : Byte}
    (h : type5DataBlocks ccBytes dataAreaSize blockSize blockCount = some (first, last)) :
    first.toNat = ccBytes.toNat / 4 ∧ last.toNat < ccBytes.toNat / 4 + (dataAreaSize.toNat + 3) / 4 ∧
      (blockCount ≠ 0 → last.toNat < blockCount.toNat) := by
  have hcc := ccBytes.isLt
  have hfirst : (BitVec.ofNat 16 (ccBytes.toNat / type5BlockSize.toNat)).toNat = ccBytes.toNat / 4 := by
    rw [BitVec.toNat_ofNat]
    exact Nat.mod_eq_of_lt (Nat.lt_of_le_of_lt (Nat.div_le_self ..) hcc)
  rw [type5DataBlocks] at h
  split at h
  · cases h
  split at h
  · cases h
  rename_i dataBlocks hblocks
  have hcount := ceilUnits_four_toNat hblocks
  dsimp only at h
  rw [hfirst] at h
  split at h
  · cases h
  rename_i hne
  split at h
  · cases h
  rename_i hmax
  have hpos : dataBlocks.toNat ≠ 0 := fun hz => hne (BitVec.eq_of_toNat_eq hz)
  generalize hlast : (if blockCount ≠ 0 ∧ blockCount.toNat ≤ ccBytes.toNat / 4 + (dataBlocks.toNat - 1)
    then blockCount.toNat - 1 else ccBytes.toNat / 4 + (dataBlocks.toNat - 1)) = lastBlock at h
  have hle : lastBlock ≤ ccBytes.toNat / 4 + (dataBlocks.toNat - 1) := by
    split at hlast <;> omega
  have hcap : blockCount ≠ 0 → lastBlock < blockCount.toNat := by
    intro hbc
    have hbc' : blockCount.toNat ≠ 0 := fun hz => hbc (BitVec.eq_of_toNat_eq hz)
    split at hlast
    · omega
    · rename_i hnot
      have := Nat.lt_of_not_le fun hle' => hnot ⟨hbc, hle'⟩
      omega
  split at h
  · cases h
    have hword : (BitVec.ofNat 16 lastBlock).toNat = lastBlock := by
      rw [BitVec.toNat_ofNat]
      exact Nat.mod_eq_of_lt (by change _ < 65536; omega)
    rw [hword]
    exact ⟨hfirst, by omega, hcap⟩
  · cases h

/-- The container of an accepted data area takes whole blocks. -/
theorem type5DataBlocks_cc {ccBytes dataAreaSize first last blockCount : Word} {blockSize : Byte}
    (h : type5DataBlocks ccBytes dataAreaSize blockSize blockCount = some (first, last)) :
    0 < ccBytes.toNat ∧ ccBytes.toNat % 4 = 0 := by
  rw [type5DataBlocks] at h
  split at h
  · cases h
  · rename_i hgeometry
    obtain ⟨hcc, hrest⟩ := not_or.mp hgeometry
    refine ⟨Nat.pos_of_ne_zero fun hzero => hcc (BitVec.eq_of_toNat_eq hzero), ?_⟩
    exact not_not.mp (not_or.mp (not_or.mp hrest).2).2

/-- **Type 5 spans.** Every block of an accepted span is at most the last block of the data area. -/
theorem type5ReadSpanOk_spec {ccBytes dataAreaSize blockCount block len : Word} {blockSize : Byte}
    (h : type5ReadSpanOk ccBytes dataAreaSize blockSize blockCount block len = true) :
    0 < len.toNat ∧
      block.toNat + ((len.toNat + 3) / 4 - 1) < ccBytes.toNat / 4 + (dataAreaSize.toNat + 3) / 4 ∧
      (blockCount ≠ 0 → block.toNat + ((len.toNat + 3) / 4 - 1) < blockCount.toNat) := by
  rw [type5ReadSpanOk] at h
  split at h
  · rename_i first last blocks hlast hblocks
    obtain ⟨-, hl, hcap⟩ := type5DataBlocks_spec hlast
    have hp := ceilUnits_four_toNat hblocks
    obtain ⟨hlen, -, hend⟩ := of_decide_eq_true h
    rw [hp] at hend
    have hpos : len.toNat ≠ 0 := fun hz => hlen (BitVec.eq_of_toNat_eq hz)
    exact ⟨Nat.pos_of_ne_zero hpos, by omega, fun hbc => by have := hcap hbc; omega⟩
  · cases h

/-- An accepted span does not run out of the block numbers. -/
theorem type5ReadSpanOk_word {ccBytes dataAreaSize blockCount block len : Word} {blockSize : Byte}
    (h : type5ReadSpanOk ccBytes dataAreaSize blockSize blockCount block len = true) :
    block.toNat + ((len.toNat + 3) / 4 - 1) < 65536 := by
  rw [type5ReadSpanOk] at h
  split at h
  · rename_i first last blocks hlast hblocks
    obtain ⟨-, -, hend⟩ := of_decide_eq_true h
    rw [ceilUnits_four_toNat hblocks] at hend
    exact Nat.lt_of_le_of_lt hend last.isLt
  · cases h

/-- A write span is a read span of whole blocks that starts in the data area. -/
theorem type5WriteSpanOk_spec {ccBytes dataAreaSize blockCount block len : Word} {blockSize : Byte}
    (h : type5WriteSpanOk ccBytes dataAreaSize blockSize blockCount block len = true) :
    len.toNat % 4 = 0 ∧ ccBytes.toNat / 4 ≤ block.toNat ∧
      type5ReadSpanOk ccBytes dataAreaSize blockSize blockCount block len = true := by
  rw [type5WriteSpanOk] at h
  split at h
  · rename_i first last blocks hlast hblocks
    obtain ⟨hlen, hmod, hne, hfirst, hend⟩ := of_decide_eq_true h
    rw [(type5DataBlocks_spec hlast).1] at hfirst
    refine ⟨hmod, hfirst, ?_⟩
    rw [type5ReadSpanOk, hlast, hblocks]
    exact decide_eq_true ⟨hlen, hne, hend⟩
  · cases h

end NeroReader.Storage
