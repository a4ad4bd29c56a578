import NeroReader.WriterType2

/-!
The firmware writer on Type 5 tags. It asks for the number of blocks, keeps a container that it finds valid and grows
its area where the TLV needs more, else writes a short one of its own, and puts the TLV over the blocks behind. Every
block is read back. A success leaves a valid container in front of the message, and the reader loads it as far as the
declared area reaches.
-/

namespace NeroReader.Tags

open Ndef Storage
open FileUpdate (File Has)
open HostStorage (ccLenOf ccLenOf_cases containerOf containerOf_congr containerOf_valid t5tCcVerAccess)

def writerType5MinMlenUnits : Nat := 8
def t5tAreaSizeUnitBytes : Nat := 8
def shortCcTemplate : Frame := [forumCcMagic, t5tCcVerAccess, 0x00, 0x00]
def getSysInfoRxCap : Nat := 16
def getSysInfoMinRx : Nat := 11
def inventoryUidRxOff : Nat := 2
def infoFlagDsfid : Byte := 0x02
def infoFlagAfi : Byte := 0x04
def memSizeFieldLen : Nat := 2
def blockSizeMask : Byte := 0x1F

/-! ### The exchanges -/

/-- `st25_iso15693_get_system_info`: the number of blocks, and their size. -/
def writerSystemInfo (rx : Frame) : Option (Nat × Byte) :=
  if rx.length < getSysInfoMinRx ∨ u8At rx 0 &&& iso15693RespFlagError ≠ 0 then none
  else
    let infoFlags := u8At rx 1
    let pos := inventoryUidRxOff + sysInfoUidFieldLen + (if infoFlags &&& 0x01 ≠ 0 then 1 else 0) +
      (if infoFlags &&& infoFlagDsfid ≠ 0 then 1 else 0)
    if infoFlags &&& infoFlagAfi = 0 then none
    else if rx.length < pos + memSizeFieldLen then none
    else some ((u8At rx pos).toNat + 1, (u8At rx (pos + 1) &&& blockSizeMask) + 1)

/-- The number of blocks and their size, as the writer goes on with them. -/
def writerGeometry (answer : Option Frame) : Nat × Byte :=
  ((answer.map (·.take getSysInfoRxCap)).bind writerSystemInfo).getD (0, type5BlockSize)

/-- `iso15693_read`. -/
def iso15693Read (uid : Frame) (block : Byte) (bufLen : Nat) : RfExchange (Option Frame) :=
  send (readBlockCommand uid block) >>= fun answer => pure (answerData answer (iso15693MinStatusRx - 1) bufLen)

/-- `iso15693_write`. The tag's word on the command is ignored. -/
def iso15693Write (uid : Frame) (block : Byte) (data : Frame) : RfExchange Bool :=
  if data.length = 0 ∨ sysInfoUidFieldLen < data.length then pure false
  else
    sendWrite (writeBlockCommand uid block data) data >>= fun _ =>
      iso15693Read uid block data.length >>= fun verify => pure (verifies data verify)

/-- `writer_type5_write_unit`. -/
def writerType5WriteUnit (uid : Frame) (unit : Word) (data : Frame) : RfExchange Bool :=
  if data.length ≠ type5BlockSize.toNat ∨ 0xFF < unit.toNat then pure false
  else iso15693Write uid (unit.setWidth 8) data

/-- The container that `writer_tag_write_type5_impl` finds on the tag. -/
def existingCc (uid : Frame) : RfExchange (Option Frame) :=
  iso15693Read uid 0 type5BlockSize.toNat >>= fun answer =>
    match ccPage answer with
    | none => pure none
    | some page0 =>
        if declaresTwoBlocks page0 then
          iso15693Read uid 1 type5BlockSize.toNat >>= fun answer => pure (some (page0 ++ (ccPage answer).getD []))
        else pure (some page0)

/-! ### The container -/

/-- The container a write goes on from: that of the tag where it is valid, else a short one that declares no area. -/
def startCc (existing : Option Frame) : Frame :=
  (existing.filter fun cc => (type5ApplyCc cc).ccValid).getD shortCcTemplate

/-- The area that the TLV asks for, of eight units at least, within the blocks of the tag. -/
def writerMlen (nbBlocks firstDataBlock total : Nat) : Nat :=
  let mlen := max (BitVec.ofNat 8 ((total + t5tAreaSizeUnitBytes - 1) / t5tAreaSizeUnitBytes)).toNat
    writerType5MinMlenUnits
  if firstDataBlock < nbBlocks then
    min mlen (min (u16 ((nbBlocks - firstDataBlock) * type5BlockSize.toNat) / t5tAreaSizeUnitBytes) 0xFF)
  else mlen

/-- What becomes of the container: the block to write, if any, its length and the first block behind it. -/
structure CcUpdate where
  page : Option Frame
  ccLen : Nat
  firstDataBlock : Nat

def hasMagic (cc : Frame) : Bool := u8At cc 0 == forumCcMagic || u8At cc 0 == t5tCcMagic8Byte

/-- The container update of `writer_tag_write_type5_impl`. -/
def ccUpdate (nbBlocks total : Nat) (cc : Frame) : CcUpdate :=
  let firstDataBlock := cc.length / type5BlockSize.toNat
  let mlen := writerMlen nbBlocks firstDataBlock total
  if cc.length = t5tCcLenExtended ∨ hasMagic cc = true ∧ mlen ≤ (u8At cc 2).toNat then ⟨none, cc.length, firstDataBlock⟩
  else
    let base := if hasMagic cc then cc else shortCcTemplate
    ⟨some ((base.set 2 (BitVec.ofNat 8 mlen)).take t5tCcLenShort), t5tCcLenShort, 1⟩

/-- The bytes of the blocks behind the container. -/
def dataAreaRaw (nbBlocks firstDataBlock : Nat) : Nat :=
  if firstDataBlock < nbBlocks then (nbBlocks - firstDataBlock) * type5BlockSize.toNat else 0

/-- The checks of `writer_tag_write_type5_impl` on the blocks of the TLV; the first of them. -/
def checkedFirstBlock (nbBlocks : Nat) (blkSize : Byte) (update : CcUpdate) (total : Nat) : Option Nat :=
  match ceilUnits (BitVec.ofNat 16 total) type5BlockSize with
  | none => none
  | some blocksNeeded =>
      if blocksNeeded = 0 then none
      else
        let within :=
          if nbBlocks = 0 then some update.firstDataBlock
          else
            let area := dataAreaRaw nbBlocks update.firstDataBlock
            if 0xFFFF < area then none
            else
              match type5DataBlocks (BitVec.ofNat 16 update.ccLen) (BitVec.ofNat 16 area) blkSize
                  (BitVec.ofNat 16 nbBlocks) with
              | none => none
              | some (firstDataBlock, lastDataBlock) =>
                  if lastDataBlock.toNat < firstDataBlock.toNat + blocksNeeded.toNat - 1 then none
                  else some firstDataBlock.toNat
        within.filter fun firstDataBlock => firstDataBlock + blocksNeeded.toNat ≤ iso15693BlockAddr1ByteMax + 1

/-- Writes the container where it has to be. -/
def writeCc (uid : Frame) (page : Option Frame) : RfExchange Bool :=
  match page with
  | none => pure true
  | some page => iso15693Write uid 0 page

/-- What `writer_tag_write_type5_impl` does once it has looked for a container. -/
def writeFromCc (uid tlv : Frame) (geometry : Nat × Byte) (existing : Option Frame) : RfExchange Bool :=
  let info := type5ApplyCc (existing.getD [])
  if info.ccValid = true ∧ info.writeAccessOpen = false then pure false
  else
    let update := ccUpdate geometry.1 tlv.length (startCc existing)
    match checkedFirstBlock geometry.1 geometry.2 update tlv.length with
    | none => pure false
    | some firstDataBlock =>
        writeCc uid update.page >>= fun ready =>
          if ready then
            writeStorageTlvUnits (writerType5WriteUnit uid) tlv (BitVec.ofNat 16 firstDataBlock) type5BlockSize
          else pure false

/-- `writer_tag_write_type5_impl`. -/
def writeType5Impl (uid ndef : Frame) : RfExchange Bool :=
  let tlv := writerTlv ndef
  if tlv = [] then pure false
  else
    send (systemInfoCommand uid) >>= fun answer =>
      let geometry := writerGeometry answer
      if geometry.2 ≠ type5BlockSize then pure false
      else existingCc uid >>= fun existing => writeFromCc uid tlv geometry existing

/-! ### What a container declares -/

theorem type5ApplyCc_magic {cc : Frame} (h : (type5ApplyCc cc).ccValid = true) :
    u8At cc 0 = forumCcMagic ∨ u8At cc 0 = t5tCcMagic8Byte := by
  rw [type5ApplyCc] at h
  split at h
  · exact absurd h (by simp [clearedCc])
  split at h
  · exact absurd h (by simp [clearedCc])
  next hmagic => exact Decidable.or_iff_not_not_and_not.mpr hmagic

theorem dataAreaRaw_eq (nbBlocks firstDataBlock : Nat) :
    dataAreaRaw nbBlocks firstDataBlock = 4 * (nbBlocks - firstDataBlock) := by
  rw [dataAreaRaw, show type5BlockSize.toNat = 4 from rfl]
  split <;> omega

theorem checkedFirstBlock_spec {nbBlocks total firstDataBlock : Nat} {blkSize : Byte} {update : CcUpdate}
    (hlen : update.ccLen = 4 * update.firstDataBlock) (hfirst : update.firstDataBlock < 0x100) (hpos : 0 < total)
    (htotal : total ≤ 0xFFFF) (h : checkedFirstBlock nbBlocks blkSize update total = some firstDataBlock) :
    firstDataBlock = update.firstDataBlock ∧ firstDataBlock + units total ≤ 0x100 ∧
      (nbBlocks ≠ 0 → firstDataBlock + units total ≤ nbBlocks) := by
  have hword : (BitVec.ofNat 16 total).toNat = total := by
    rw [BitVec.toNat_ofNat, Nat.mod_eq_of_lt (by omega)]
  have hblocks : (BitVec.ofNat 16 ((total + 3) / 4)).toNat = units total := by
    rw [BitVec.toNat_ofNat, Nat.mod_eq_of_lt (by omega), units]
  have hunits : 0 < units total := by
    rw [units]
    omega
  rw [checkedFirstBlock, type5BlockSize, ceilUnits_four, hword] at h
  dsimp only at h
  rw [hblocks] at h
  split at h
  · exact absurd h (by simp)
  obtain ⟨hwithin, hrange⟩ := Option.filter_eq_some_iff.mp h
  rw [decide_eq_true_eq, iso15693BlockAddr1ByteMax] at hrange
  split at hwithin
  next hzero =>
    obtain rfl := Option.some.inj hwithin
    exact ⟨rfl, hrange, fun hne => absurd hzero hne⟩
  next =>
    split at hwithin
    · exact absurd hwithin (by simp)
    next hraw =>
    split at hwithin
    · exact absurd hwithin (by simp)
    next first last hdata =>
    split at hwithin
    · exact absurd hwithin (by simp)
    next hlast =>
    obtain rfl := Option.some.inj hwithin
    obtain ⟨hfirstEq, hbehind, -⟩ := type5DataBlocks_spec hdata
    rw [dataAreaRaw_eq] at hraw hbehind
    rw [BitVec.toNat_ofNat, Nat.mod_eq_of_lt (by omega)] at hfirstEq
    rw [BitVec.toNat_ofNat, BitVec.toNat_ofNat, Nat.mod_eq_of_lt (by omega), Nat.mod_eq_of_lt (by omega)] at hbehind
    exact ⟨by omega, hrange, fun _ => by omega⟩

/-- A short container of some area is valid. -/
theorem containerOf_short {memory : File Byte} (hmagic : memory 0 = forumCcMagic ∨ memory 0 = t5tCcMagic8Byte)
    (hmlen : memory 2 ≠ 0) :
    (containerOf memory).ccValid = true ∧ ccLenOf memory = 4 := by
  have hpos : (memory 2).toNat ≠ 0 := fun hzero => hmlen (BitVec.eq_of_toNat_eq hzero)
  have hlt := (memory 2).isLt
  have hunits : ((memory 2).zeroExtend 16).toNat = (memory 2).toNat := BitVec.toNat_setWidth_of_le (by decide)
  have hsize : ¬ ((memory 2).zeroExtend 16 = 0 ∨ 0xFFFF / 8 < ((memory 2).zeroExtend 16).toNat) := by
    rintro (hzero | hlarge)
    · rw [hzero] at hunits
      exact hpos hunits.symm
    · omega
  have hknown : ¬ (memory 0 ≠ forumCcMagic ∧ memory 0 ≠ t5tCcMagic8Byte) := fun h => hmagic.elim h.1 h.2
  rw [containerOf, type5ApplyCc, if_neg (by rw [bytesAt_length]; decide), u8At_bytesAt memory 0 (by decide),
    u8At_bytesAt memory 0 (show 2 < 8 by decide), Nat.zero_add, if_neg hknown, if_neg (fun h => hmlen h.1)]
  dsimp only
  rw [if_pos hmlen, if_neg hsize, ccLenOf, if_neg hmlen]
  exact ⟨rfl, rfl⟩

theorem writerGeometry_le (answer : Option Frame) : (writerGeometry answer).1 ≤ 0x100 := by
  rw [writerGeometry]
  cases h : (answer.map (·.take getSysInfoRxCap)).bind writerSystemInfo with
  | none => decide
  | some geometry =>
      obtain ⟨rx, -, hrx⟩ := Option.bind_eq_some_iff.mp h
      rw [writerSystemInfo] at hrx
      dsimp only at hrx
      split_ifs at hrx
      all_goals
        obtain rfl := Option.some.inj hrx
        exact Nat.succ_le_of_lt (BitVec.isLt _)

theorem writerMlen_le (nbBlocks firstDataBlock total : Nat) : writerMlen nbBlocks firstDataBlock total ≤ 0xFF := by
  have hbyte := (BitVec.ofNat 8 ((total + t5tAreaSizeUnitBytes - 1) / t5tAreaSizeUnitBytes)).isLt
  rw [writerMlen, writerType5MinMlenUnits]
  split <;> omega

theorem toNat_writerMlen (nbBlocks firstDataBlock total : Nat) :
    (BitVec.ofNat 8 (writerMlen nbBlocks firstDataBlock total)).toNat = writerMlen nbBlocks firstDataBlock total :=
  (BitVec.toNat_ofNat _ _).trans (Nat.mod_eq_of_lt (Nat.lt_succ_of_le (writerMlen_le _ _ _)))

section Mlen

variable {nbBlocks total : Nat}

theorem writerMlen_eq (htotal : total ≤ 880) (hcounted : nbBlocks ≤ 0x100) :
    writerMlen nbBlocks 1 total =
      if 1 < nbBlocks then min (max ((total + 7) / 8) 8) ((nbBlocks - 1) / 2) else max ((total + 7) / 8) 8 := by
  rw [writerMlen, writerType5MinMlenUnits, t5tAreaSizeUnitBytes, show type5BlockSize.toNat = 4 from rfl,
    BitVec.toNat_ofNat, Nat.mod_eq_of_lt (by omega), u16_of_le (by omega)]
  split <;> omega

/-- Two blocks leave no room for eight bytes. -/
theorem writerMlen_pos (htotal : total ≤ 880) (hcounted : nbBlocks ≤ 0x100) (htwo : nbBlocks ≠ 2) :
    0 < writerMlen nbBlocks 1 total := by
  rw [writerMlen_eq htotal hcounted]
  split <;> omega

/-- The area covers the TLV unless an even number of blocks leaves an odd one behind the container. -/
theorem writerMlen_covers (htotal : total ≤ 880) (hcounted : nbBlocks ≤ 0x100) (hodd : nbBlocks = 0 ∨ nbBlocks % 2 = 1)
    (hfits : nbBlocks ≠ 0 → 1 + units total ≤ nbBlocks) : total ≤ 8 * writerMlen nbBlocks 1 total := by
  rw [units] at hfits
  rw [writerMlen_eq htotal hcounted]
  split <;> omega

end Mlen

/-! ### One block -/

/-- A tag that answers each READ of these blocks with a block at the least. -/
structure AnsweringType5Step (uid : Frame) (systemInfo systemInfoExt : Option Frame) (blocks : Set Byte) (s : TagState)
    (request : Request) (answer : Option Frame) (t : TagState) : Prop
    extends Type5Step uid systemInfo systemInfoExt s request answer t where
  answered (block : Byte) : block ∈ blocks → request = .command (readBlockCommand uid block) →
    ∃ flags data, answer = some (flags :: data) ∧ flags &&& iso15693RespFlagError = 0 ∧ 4 ≤ data.length

section Write

variable {uid ndef : Frame} {systemInfo systemInfoExt : Option Frame} {blocks : Set Byte} {units : Set Nat}

theorem writes_iso15693Read (block : Byte) (bufLen : Nat) (s : TagState) :
    Writes (AnsweringType5Step uid systemInfo systemInfoExt blocks) units (fun rx t => t = s ∧
      (∀ data, rx = some data → CutFrom s.memory (4 * block.toNat) (4 * block.toNat + 4) data) ∧
      (block ∈ blocks → ∃ data, rx = some data ∧ min 4 bufLen ≤ data.length)) (iso15693Read uid block bufLen) s := by
  have hsend : Writes (AnsweringType5Step uid systemInfo systemInfoExt blocks) units (fun answer t => t = s ∧
      DataCutFrom s.memory (4 * block.toNat) (4 * block.toNat + 4) answer ∧ (block ∈ blocks →
        ∃ flags data, answer = some (flags :: data) ∧ flags &&& iso15693RespFlagError = 0 ∧ 4 ≤ data.length))
      (send (readBlockCommand uid block)) s := by
    refine writes_send_read fun answer t hstep => ?_
    obtain ⟨hsame, hcut⟩ := hstep.read block rfl
    exact ⟨hsame, hcut, fun hmem => hstep.answered block hmem rfl⟩
  refine hsend.bind fun answer t _ h => ?_
  obtain ⟨rfl, hcut, hanswered⟩ := h
  refine writes_pure ⟨rfl, fun data hdata => (hcut.answerData hdata).1, fun hmem => ?_⟩
  obtain ⟨flags, data, rfl, hflag, hlong⟩ := hanswered hmem
  refine ⟨data.take bufLen, ?_, ?_⟩
  · rw [answerData, Option.bind_some, iso15693MinStatusRx, if_neg, List.drop_succ_cons, List.drop_zero]
    rw [List.length_cons, u8At_cons_zero, hflag]
    exact not_or_intro (by omega) fun herror => herror rfl
  · rw [List.length_take]
    omega

theorem writes_iso15693Write (block : Byte) {data : Frame} (hdata : data.length = 4) (s : TagState) :
    Writes (AnsweringType5Step uid systemInfo systemInfoExt blocks) {block.toNat}
      (fun ok t => ok = true → Has t.memory (4 * block.toNat) data) (iso15693Write uid block data) s := by
  rw [iso15693Write]
  split
  · exact writes_refused
  refine (writes_sendWrite fun answer t hstep => hstep.write block data hdata rfl).bind fun _ t _ _ => ?_
  refine (writes_iso15693Read block data.length t).bind fun verify u _ h => ?_
  obtain ⟨rfl, hcut, -⟩ := h
  exact writes_pure fun hok => has_of_verifies (by rwa [hdata]) hok

/-- **A block write of the writer** touches its block only, and succeeds only when the block holds the data. -/
theorem writesUnit_writerType5 :
    WritesUnit (AnsweringType5Step uid systemInfo systemInfoExt blocks) (writerType5WriteUnit uid) := by
  intro unit data s hdata
  rw [writerType5WriteUnit]
  split
  · exact writes_refused
  next hfits =>
    have hbyte : (unit.setWidth 8).toNat = unit.toNat := toNat_lowByte (by omega)
    have h := @writes_iso15693Write uid systemInfo systemInfoExt blocks (unit.setWidth 8) data hdata s
    rwa [hbyte] at h

/-- What the writer read of a container: where it is valid, it is the container on the tag. -/
def ReadCc (memory : File Byte) (existing : Option Frame) : Prop :=
  ∀ cc, existing = some cc → (type5ApplyCc cc).ccValid = true →
    cc = bytesAt memory 0 (ccLenOf memory) ∧ type5ApplyCc cc = containerOf memory

theorem readCc_short {memory : File Byte} (hone : declaresTwoBlocks (bytesAt memory 0 4) = false) :
    ReadCc memory (some (bytesAt memory 0 4)) := by
  intro cc hcc hvalid
  obtain rfl := Option.some.inj hcc
  have hcontainer := short_container hone
  refine ⟨?_, hcontainer⟩
  rw [hcontainer] at hvalid
  have hmagic := type5ApplyCc_magic hvalid
  rw [u8At_bytesAt memory 0 (by decide), Nat.zero_add] at hmagic
  have hmlen : memory 2 ≠ 0 := fun hzero => by
    rw [declaresTwoBlocks_iff.mpr ⟨hmagic, hzero⟩] at hone
    exact Bool.false_ne_true hone.symm
  rw [ccLenOf, if_neg hmlen]
  rfl

/-- What becomes of the container on a tag. -/
inductive Updates (memory : File Byte) (existing : Option Frame) (mlen : Nat) : CcUpdate → Prop where
  | keeps (valid : (containerOf memory).ccValid = true) (covers : ccLenOf memory = 4 → mlen ≤ (memory 2).toNat) :
      Updates memory existing mlen ⟨none, ccLenOf memory, ccLenOf memory / 4⟩
  | grows (valid : (containerOf memory).ccValid = true) (short : ccLenOf memory = 4) (small : (memory 2).toNat < mlen) :
      Updates memory existing mlen ⟨some [memory 0, memory 1, BitVec.ofNat 8 mlen, memory 3], 4, 1⟩
  | initialises (invalid : (type5ApplyCc (existing.getD [])).ccValid = false) (pos : 0 < mlen) :
      Updates memory existing mlen ⟨some [forumCcMagic, t5tCcVerAccess, BitVec.ofNat 8 mlen, 0], 4, 1⟩
  | leaves (invalid : (type5ApplyCc (existing.getD [])).ccValid = false) (zero : mlen = 0) :
      Updates memory existing mlen ⟨none, 4, 1⟩

theorem ccUpdate_short {nbBlocks total : Nat} {cc : Frame} (hlen : cc.length = 4) (hmagic : hasMagic cc = true) :
    ccUpdate nbBlocks total cc =
      if writerMlen nbBlocks 1 total ≤ (u8At cc 2).toNat then ⟨none, 4, 1⟩
      else ⟨some (cc.set 2 (BitVec.ofNat 8 (writerMlen nbBlocks 1 total))), 4, 1⟩ := by
  have hbase : (cc.set 2 (BitVec.ofNat 8 (writerMlen nbBlocks 1 total))).take t5tCcLenShort =
      cc.set 2 (BitVec.ofNat 8 (writerMlen nbBlocks 1 total)) :=
    List.take_of_length_le (by rw [List.length_set, hlen]; decide)
  rw [ccUpdate, hlen, hmagic, t5tCcLenExtended, show 4 / type5BlockSize.toNat = 1 from rfl]
  dsimp only
  by_cases hcovers : writerMlen nbBlocks 1 total ≤ (u8At cc 2).toNat
  · rw [if_pos (Or.inr ⟨rfl, hcovers⟩), if_pos hcovers]
  · rw [if_neg (by simpa using hcovers), if_neg hcovers, if_pos rfl, hbase]
    rfl

theorem updates_ccUpdate {memory : File Byte} {existing : Option Frame} (h : ReadCc memory existing)
    (nbBlocks total : Nat) :
    Updates memory existing (writerMlen nbBlocks 1 total) (ccUpdate nbBlocks total (startCc existing)) := by
  by_cases hvalid : (type5ApplyCc (existing.getD [])).ccValid = true
  · obtain ⟨cc, rfl⟩ : ∃ cc, existing = some cc := by
      cases existing with
      | none => exact absurd hvalid (by decide)
      | some cc => exact ⟨cc, rfl⟩
    rw [Option.getD_some] at hvalid
    obtain ⟨rfl, hcontainer⟩ := h cc rfl hvalid
    have hstart : startCc (some (bytesAt memory 0 (ccLenOf memory))) = bytesAt memory 0 (ccLenOf memory) := by
      rw [startCc, Option.filter_some, if_pos hvalid, Option.getD_some]
    have hmagic : hasMagic (bytesAt memory 0 (ccLenOf memory)) = true := by
      rw [hasMagic, Bool.or_eq_true, beq_iff_eq, beq_iff_eq]
      exact type5ApplyCc_magic hvalid
    rw [hcontainer] at hvalid
    rw [hstart]
    rcases ccLenOf_cases memory with hfour | height
    · rw [ccUpdate_short (by rw [bytesAt_length, hfour]) hmagic, hfour, u8At_bytesAt memory 0 (by decide), Nat.zero_add]
      split
      next hcovers =>
        have hkeeps : Updates memory (some (bytesAt memory 0 4)) (writerMlen nbBlocks 1 total)
            ⟨none, ccLenOf memory, ccLenOf memory / 4⟩ := .keeps hvalid fun _ => hcovers
        rwa [hfour] at hkeeps
      next hsmall => exact .grows hvalid hfour (Nat.lt_of_not_le hsmall)
    · have hkeeps : ccUpdate nbBlocks total (bytesAt memory 0 (ccLenOf memory)) =
          ⟨none, ccLenOf memory, ccLenOf memory / 4⟩ := by
        rw [ccUpdate, bytesAt_length, if_pos (Or.inl (show ccLenOf memory = t5tCcLenExtended from height))]
        rfl
      rw [hkeeps]
      exact .keeps hvalid fun hfour => by omega
  · rw [Bool.not_eq_true] at hvalid
    have hstart : startCc existing = shortCcTemplate := by
      cases existing with
      | none => rfl
      | some cc =>
          rw [Option.getD_some] at hvalid
          rw [startCc, Option.filter_some, if_neg (by rw [hvalid]; decide), Option.getD_none]
    rw [hstart, ccUpdate_short rfl rfl]
    split
    next hzero => exact .leaves hvalid (Nat.le_zero.mp hzero)
    next hpos => exact .initialises hvalid (Nat.pos_of_ne_zero fun hzero => hpos (Nat.le_of_eq hzero))

/-- The tag answers for the blocks of the container that it holds. -/
def AnswersCc (blocks : Set Byte) (memory : File Byte) : Prop := 0 ∈ blocks ∧ (ccLenOf memory = 8 → 1 ∈ blocks)

theorem ccPage_some {answer : Option Frame}
    (h : ∃ data, answer = some data ∧ min 4 type5BlockSize.toNat ≤ data.length) :
    ∃ page, ccPage answer = some page := by
  obtain ⟨data, rfl, hlong⟩ := h
  refine ⟨data.take 4, ?_⟩
  rw [ccPage, t5tCcLenShort, Option.filter_some, if_pos (decide_eq_true (show 4 ≤ data.length from hlong)),
    Option.map_some]

theorem writes_existingCc (s : TagState) :
    Writes (AnsweringType5Step uid systemInfo systemInfoExt blocks) units (fun existing t => t = s ∧
      ReadCc s.memory existing ∧ (AnswersCc blocks s.memory → type5ApplyCc (existing.getD []) = containerOf s.memory))
      (existingCc uid) s := by
  refine (writes_iso15693Read 0 _ s).bind fun answer t _ h => ?_
  obtain ⟨rfl, hcut, hanswered⟩ := h
  cases hpage0 : ccPage answer with
  | none =>
      refine writes_pure ⟨rfl, fun cc hcc => absurd hcc.symm (Option.some_ne_none cc), fun hknown => ?_⟩
      obtain ⟨page, hpage⟩ := ccPage_some (hanswered hknown.1)
      rw [hpage0] at hpage
      exact absurd hpage.symm (Option.some_ne_none page)
  | some page0 =>
      obtain rfl : page0 = bytesAt t.memory 0 4 := ccPage_eq hcut hpage0
      dsimp only
      split
      swap
      next hone =>
        rw [Bool.not_eq_true] at hone
        exact writes_pure ⟨rfl, readCc_short hone, fun _ => short_container hone⟩
      next htwo =>
        have height : ccLenOf t.memory = 8 := by
          rw [ccLenOf, if_pos (declaresTwoBlocks_iff.mp htwo).2]
          rfl
        refine (writes_iso15693Read 1 _ t).bind fun answer u _ h => ?_
        obtain ⟨rfl, hcut, hanswered⟩ := h
        cases hpage1 : ccPage answer with
        | none =>
            refine writes_pure ⟨rfl, fun cc hcc hvalid => ?_, fun hknown => ?_⟩
            · obtain rfl := Option.some.inj hcc
              rw [Option.getD_none, List.append_nil, cut_container htwo] at hvalid
              exact absurd hvalid (by simp)
            · obtain ⟨page, hpage⟩ := ccPage_some (hanswered (hknown.2 height))
              rw [hpage1] at hpage
              exact absurd hpage.symm (Option.some_ne_none page)
        | some page1 =>
            obtain rfl : page1 = bytesAt u.memory 4 4 := ccPage_eq hcut hpage1
            have hboth : bytesAt u.memory 0 4 ++ (some (bytesAt u.memory 4 4)).getD [] = bytesAt u.memory 0 8 :=
              bytesAt_append u.memory 0 4 4
            rw [hboth]
            refine writes_pure ⟨rfl, fun cc hcc _ => ?_, fun _ => rfl⟩
            obtain rfl := Option.some.inj hcc
            rw [height]
            exact ⟨rfl, rfl⟩

/-- What a success has left on the tag. -/
structure Wrote (nbBlocks : Nat) (tlv : Frame) (update : CcUpdate) (memory : File Byte) : Prop where
  page : ∀ p, update.page = some p → Has memory 0 p
  stored : Has memory (4 * update.firstDataBlock) tlv
  fits : nbBlocks ≠ 0 → update.firstDataBlock + Tags.units tlv.length ≤ nbBlocks

/-- The blocks that an update and a TLV take, where the container that was read does not close them. -/
def takenBlocks (info : Type5Cc) (update : CcUpdate) (tlv : Frame) : Set Nat :=
  {u | (info.ccValid = true → info.writeAccessOpen = true) ∧ u < 0x100 ∧
    (u = 0 ∧ update.page.isSome ∨ u ∈ unitsFrom update.firstDataBlock tlv)}

theorem writes_writeCc {page : Option Frame} (hlen : ∀ p, page = some p → p.length = 4) (s : TagState) :
    Writes (AnsweringType5Step uid systemInfo systemInfoExt blocks) {u | u = 0 ∧ page.isSome}
      (fun ok t => ok = true → ∀ p, page = some p → Has t.memory 0 p) (writeCc uid page) s := by
  cases page with
  | none => exact writes_pure fun _ p hp => absurd hp.symm (Option.some_ne_none p)
  | some page =>
      refine ((writes_iso15693Write 0 (hlen page rfl) s).within ?_).mono fun ok t _ hstored hok p hp => ?_
      · rintro u rfl
        exact ⟨rfl, rfl⟩
      · obtain rfl := Option.some.inj hp
        exact hstored hok

theorem Updates.layout {memory : File Byte} {existing : Option Frame} {mlen : Nat} {update : CcUpdate}
    (h : Updates memory existing mlen update) :
    update.ccLen = 4 * update.firstDataBlock ∧ 0 < update.firstDataBlock ∧ update.firstDataBlock ≤ 2 ∧
      ∀ p, update.page = some p → p.length = 4 ∧ update.firstDataBlock = 1 := by
  cases h with
  | keeps =>
      have hcases := ccLenOf_cases memory
      exact ⟨by dsimp only; omega, by dsimp only; omega, by dsimp only; omega,
        fun p hp => absurd hp.symm (Option.some_ne_none p)⟩
  | grows => exact ⟨rfl, Nat.one_pos, Nat.le_succ 1, fun p hp => ⟨by rw [← Option.some.inj hp]; rfl, rfl⟩⟩
  | initialises => exact ⟨rfl, Nat.one_pos, Nat.le_succ 1, fun p hp => ⟨by rw [← Option.some.inj hp]; rfl, rfl⟩⟩
  | leaves => exact ⟨rfl, Nat.one_pos, Nat.le_succ 1, fun p hp => absurd hp.symm (Option.some_ne_none p)⟩

theorem writes_writeFromCc {existing : Option Frame} {s : TagState} (hcc : ReadCc s.memory existing)
    (htlv : writerTlv ndef ≠ []) (geometry : Nat × Byte) :
    Writes (AnsweringType5Step uid systemInfo systemInfoExt blocks)
      (takenBlocks (type5ApplyCc (existing.getD []))
        (ccUpdate geometry.1 (writerTlv ndef).length (startCc existing)) (writerTlv ndef))
      (fun ok t => ok = true →
        Wrote geometry.1 (writerTlv ndef) (ccUpdate geometry.1 (writerTlv ndef).length (startCc existing)) t.memory)
      (writeFromCc uid (writerTlv ndef) geometry existing) s := by
  obtain ⟨heq, hne, hfits⟩ := writerTlv_spec htlv
  have hlen : (writerTlv ndef).length = tlvEnvelopeLen ndef.length := by rw [heq, messageTlv_length]
  have hpos : 0 < (writerTlv ndef).length := List.length_pos_iff.mpr htlv
  obtain ⟨hccLen, hfirstPos, hfirstLe, hpage⟩ := (updates_ccUpdate hcc geometry.1 (writerTlv ndef).length).layout
  rw [writeFromCc]
  dsimp only
  split
  · exact writes_refused
  next hclosed =>
  have hopen : (type5ApplyCc (existing.getD [])).ccValid = true →
      (type5ApplyCc (existing.getD [])).writeAccessOpen = true := fun hvalid => by
    by_contra hno
    exact hclosed ⟨hvalid, by simpa using hno⟩
  generalize hupdate : ccUpdate geometry.1 (writerTlv ndef).length (startCc existing) = update at *
  cases hchecked : checkedFirstBlock geometry.1 geometry.2 update (writerTlv ndef).length with
  | none => exact writes_refused
  | some firstDataBlock =>
      obtain ⟨rfl, hrange, hcounted⟩ := checkedFirstBlock_spec hccLen (by omega) hpos (by omega) hchecked
      dsimp only
      have hword : (BitVec.ofNat 16 update.firstDataBlock).toNat = update.firstDataBlock := by
        rw [BitVec.toNat_ofNat, Nat.mod_eq_of_lt (by omega)]
      refine ((writes_writeCc (fun p hp => (hpage p hp).1) s).within ?_).bind fun ready t _ hstored => ?_
      · rintro u ⟨rfl, hsome⟩
        exact ⟨hopen, by decide, .inl ⟨rfl, hsome⟩⟩
      split
      swap
      · exact writes_refused
      next hready =>
      have hwrite := @writes_writeStorageTlvUnits (AnsweringType5Step uid systemInfo systemInfoExt blocks)
        (writerType5WriteUnit uid) (writerTlv ndef) (BitVec.ofNat 16 update.firstDataBlock) writesUnit_writerType5 hpos
        (by omega) (by rw [hword]; omega) t
      rw [hword] at hwrite
      refine Dialogue.Holds.mono hwrite (fun u hu => hu.mono ?_) fun ok u hwrote hdone hok =>
        ⟨fun p hp => ?_, ?_, hcounted⟩
      · rintro v ⟨hlow, hhigh⟩
        exact ⟨hopen, by omega, .inr ⟨hlow, hhigh⟩⟩
      · -- the TLV stands behind the container
        obtain ⟨hplen, -⟩ := hpage p hp
        refine hwrote.has (fun i _ hi hmem => ?_) (hstored hready p hp)
        have hlow : update.firstDataBlock ≤ i / 4 := hmem.1
        omega
      · exact has_of_padded (hdone hok)

/-- **A success leaves a valid container** in front of the TLV, and it covers what was asked for. -/
theorem Wrote.container {existing : Option Frame} {nbBlocks : Nat} {tlv : Frame} {update : CcUpdate} {info : Type5Cc}
    {s t : TagState} (hupdates : Updates s.memory existing (writerMlen nbBlocks 1 tlv.length) update)
    (hwithin : WroteWithin (takenBlocks info update tlv) s t) (hwrote : Wrote nbBlocks tlv update t.memory)
    (hlong : 5 ≤ tlv.length) (hlen : tlv.length ≤ 880) (hcounted : nbBlocks ≤ 0x100) :
    (containerOf t.memory).ccValid = true ∧ ccLenOf t.memory = update.ccLen ∧
      (update.ccLen = 4 → writerMlen nbBlocks 1 tlv.length ≤ (t.memory 2).toNat) := by
  have hmlen (magic access last : Byte) (hmagic : magic = forumCcMagic ∨ magic = t5tCcMagic8Byte)
      (hpos : 0 < writerMlen nbBlocks 1 tlv.length)
      (hp : Has t.memory 0 [magic, access, BitVec.ofNat 8 (writerMlen nbBlocks 1 tlv.length), last]) :
      (containerOf t.memory).ccValid = true ∧ ccLenOf t.memory = 4 ∧
        writerMlen nbBlocks 1 tlv.length ≤ (t.memory 2).toNat := by
    have hfirst : t.memory 0 = magic := hp 0 (show 0 < 4 by decide)
    have hthird : t.memory 2 = BitVec.ofNat 8 (writerMlen nbBlocks 1 tlv.length) := hp 2 (show 2 < 4 by decide)
    have hbyte : (t.memory 2).toNat = writerMlen nbBlocks 1 tlv.length := by
      rw [hthird]
      exact toNat_writerMlen _ _ _
    have hne : t.memory 2 ≠ 0 := fun hzero => by
      rw [hzero] at hbyte
      exact absurd hbyte.symm (Nat.ne_of_gt hpos)
    obtain ⟨hvalid, hshort⟩ := containerOf_short (by rwa [hfirst]) hne
    exact ⟨hvalid, hshort, Nat.le_of_eq hbyte.symm⟩
  cases hupdates with
  | keeps hvalid hcovers =>
      have hcases := ccLenOf_cases s.memory
      have hsame (i : Nat) (hi : i < ccLenOf s.memory) : t.memory i = s.memory i := by
        refine hwithin.outside i fun hmem => ?_
        obtain ⟨-, -, ⟨-, hnone⟩ | ⟨hlow, -⟩⟩ := hmem
        · exact absurd hnone Bool.false_ne_true
        · dsimp only at hlow
          omega
      have hmlen2 : t.memory 2 = s.memory 2 := hsame 2 (by omega)
      refine ⟨by rw [containerOf_congr hsame]; exact hvalid, by rw [ccLenOf, ccLenOf, hmlen2], fun hfour => ?_⟩
      rw [hmlen2]
      exact hcovers hfour
  | grows hvalid hshort hsmall =>
      have hmagic := type5ApplyCc_magic hvalid
      rw [u8At_bytesAt s.memory 0 (by decide)] at hmagic
      obtain ⟨h, h', h''⟩ := hmlen _ _ _ hmagic (Nat.lt_of_le_of_lt (Nat.zero_le _) hsmall) (hwrote.page _ rfl)
      exact ⟨h, h', fun _ => h''⟩
  | initialises hinvalid hpos =>
      obtain ⟨h, h', h''⟩ := hmlen _ _ _ (.inl rfl) hpos (hwrote.page _ rfl)
      exact ⟨h, h', fun _ => h''⟩
  | leaves hinvalid hzero =>
      -- the tag has two blocks, and the TLV takes more than one
      by_cases htwo : nbBlocks = 2
      · have hfits := hwrote.fits (by omega)
        rw [Tags.units] at hfits
        dsimp only at hfits
        omega
      · exact absurd hzero (Nat.ne_of_gt (writerMlen_pos hlen hcounted htwo))

/-- What the writer does behind the container it finds decides what it does. -/
theorem writes_writeType5Impl {wider : Set Nat} {post : TagState → Prop} (s : TagState)
    (hfound : ∀ existing update, writerTlv ndef ≠ [] →
      Updates s.memory existing (writerMlen (writerGeometry systemInfo).1 1 (writerTlv ndef).length) update →
      (AnswersCc blocks s.memory → type5ApplyCc (existing.getD []) = containerOf s.memory) →
      takenBlocks (type5ApplyCc (existing.getD [])) update (writerTlv ndef) ⊆ wider ∧
      ∀ t, WroteWithin (takenBlocks (type5ApplyCc (existing.getD [])) update (writerTlv ndef)) s t →
        Wrote (writerGeometry systemInfo).1 (writerTlv ndef) update t.memory → post t) :
    Writes (AnsweringType5Step uid systemInfo systemInfoExt blocks) wider (fun ok t => ok = true → post t)
      (writeType5Impl uid ndef) s := by
  rw [writeType5Impl]
  dsimp only
  split
  · exact writes_refused
  next htlv =>
  refine Writes.bind (writes_send_read fun answer t hstep => hstep.systemInfo rfl) fun answer t _ h => ?_
  obtain ⟨rfl, rfl⟩ := h
  split
  · exact writes_refused
  refine (writes_existingCc t).bind fun existing u _ h => ?_
  obtain ⟨rfl, hcc, hknown⟩ := h
  obtain ⟨hsub, hpost⟩ := hfound existing _ htlv (updates_ccUpdate hcc _ _) hknown
  refine ((writes_writeFromCc hcc htlv _).mono fun ok v hwithin hwrote hok => ?_).within hsub
  exact hpost v hwithin (hwrote hok)

end Write

/-! ### What a write leaves -/

/-- The tag answers for every block of these bytes. -/
structure Type5Answering (memory : File Byte) (uid : Frame) (wide : Bool) (transceive : Transceive)
    (len : Nat) : Prop where
  answers : Type5Answers memory uid wide transceive
  complete : ∀ block < units len,
    ∃ rx, (Type5Tag.over transceive uid).readBlock block = some rx ∧ t5UserBlockSize ≤ rx.length

/-- The declared area reaches the end of the message, and a word counts container and area. -/
def AreaReaches (type5 : Type5Info) (ndefLen : Nat) : Prop :=
  (type5CcByteLen type5).toNat + type5.dataAreaSizeBytes.toNat ≤ 0xFFFF ∧
    tlvEnvelopeLen ndefLen ≤ type5.dataAreaSizeBytes.toNat + 1

theorem le_tlvEnvelopeLen (n : Nat) : n + 3 ≤ tlvEnvelopeLen n := by
  rw [tlvEnvelopeLen, tlvShortEnvelopeOverhead, tlvExtendedEnvelopeOverhead]
  split <;> omega

/-- **Loading a message that stands behind the container** of a Type 5 tag. -/
theorem loadType5_stored_iff {memory : File Byte} {uid : Frame} {systemInfo systemInfoExt : Option Frame} {wide : Bool}
    {transceive : Transceive} {dstCap : Nat} {ndef : Frame} (disabled : Bool)
    (hvalid : (containerOf memory).ccValid = true) (hfits : tlvEnvelopeLen ndef.length ≤ 880)
    (hload : Type5Answering memory uid wide transceive (ccLenOf memory + tlvEnvelopeLen ndef.length))
    (hstored : Has memory (ccLenOf memory) (messageTlv ndef)) (hpos : 0 < dstCap) (hcap : ndef.length ≤ dstCap) :
    loadType5NdefMessage (.over transceive uid) systemInfo systemInfoExt disabled dstCap = some ndef ↔
      (type5InfoOf memory systemInfo systemInfoExt).readAccessOpen = true ∧
        AreaReaches (type5InfoOf memory systemInfo systemInfoExt) ndef.length := by
  have hmax : ndefBufMax = 1024 := rfl
  have hvalid' : (type5InfoOf memory systemInfo systemInfoExt).ccValid = true := (addSystemInfo_cc _).1.trans hvalid
  have hccLen := type5CcByteLen_infoOf hvalid'
  have hcases := ccLenOf_cases memory
  have hcount := le_tlvEnvelopeLen ndef.length
  have hread (block : Nat) (hblock : block < (ccLenOf memory + tlvEnvelopeLen ndef.length + 3) / 4) :
      ∃ rx, (Type5Tag.over transceive uid).readBlock block = some rx ∧ t5UserBlockSize ≤ rx.length :=
    hload.complete block hblock
  have hinfo : @getType5Info Id _ (fun block => (Type5Tag.over transceive uid).readBlock block.toNat) systemInfo
      systemInfoExt = type5InfoOf memory systemInfo systemInfoExt := by
    have hcc : @readType5Cc Id _ (fun block => (Type5Tag.over transceive uid).readBlock block.toNat) =
        containerOf memory := by
      refine readType5Cc_answered fun block hblock => ?_
      obtain ⟨rx, hrx, hlong⟩ := hread block.toNat (by omega)
      exact ⟨rx, hrx, hlong, hload.answers.over_readBlock block.isLt hrx⟩
    change @addSystemInfo Id _ { toType5Cc := @readType5Cc Id _ _, blockSize := 0, blockCount := 0 } _ _ = _
    rw [hcc]
    rfl
  rw [loadType5NdefMessage, hinfo, AreaReaches]
  dsimp only
  clear hinfo
  generalize type5InfoOf memory systemInfo systemInfoExt = type5 at *
  rw [hccLen]
  by_cases hopen : type5.readAccessOpen = true
  swap
  · rw [if_pos (Or.inr (Or.inr (Or.inl (by simpa using hopen))))]
    exact iff_of_false (by simp) fun h => hopen h.1
  by_cases hsize : type5.dataAreaSizeBytes = 0
  · rw [if_pos (Or.inr (Or.inr (Or.inr hsize))), hsize, show (0 : Word).toNat = 0 from rfl]
    exact iff_of_false (by simp) fun h => by omega
  have hchecks :
      ¬(dstCap = 0 ∨ type5.ccValid = false ∨ type5.readAccessOpen = false ∨ type5.dataAreaSizeBytes = 0) := by
    rw [hvalid', hopen]
    simp only [Bool.true_eq_false, false_or, not_or]
    exact ⟨by omega, hsize⟩
  rw [if_neg hchecks]
  by_cases hword : ccLenOf memory + type5.dataAreaSizeBytes.toNat ≤ 0xFFFF
  swap
  · rw [if_pos (Or.inr (Nat.lt_of_not_le hword))]
    exact iff_of_false (by simp) fun h => hword h.2.1
  rw [if_neg (by omega)]
  generalize hrawLen : min (ccLenOf memory + type5.dataAreaSizeBytes.toNat) ndefBufMax = rawLen
  rw [hmax] at hrawLen
  have hpos' : type5.dataAreaSizeBytes.toNat ≠ 0 := fun hzero => hsize (BitVec.eq_of_toNat_eq hzero)
  have hcross : ¬ CrossesOneByte 0 rawLen := by
    rw [CrossesOneByte, t5UserBlockSize]
    omega
  obtain ⟨n, hn, hle, -, hfull⟩ := type5ReadBinary_bytes (show 0 + units rawLen ≤ 0x10000 by rw [units]; omega)
    hload.answers.reads (Or.inr (Or.inr hcross))
  have hcovers := hfull ((ccLenOf memory + tlvEnvelopeLen ndef.length + 3) / 4) fun block _ hblock =>
    hread block (by omega)
  rw [hn, Nat.mul_zero]
  refine (loadedMessage_iff (by omega) (by rwa [Nat.zero_add]) (by omega) (by omega) (by omega) hcap).trans ?_
  constructor
  · intro hreach
    exact ⟨hopen, hword, by omega⟩
  · rintro ⟨-, -, hreach⟩
    omega

/-- The first blocks, and those of a TLV behind either container. -/
def writerBlocks (ndef : Frame) : Set Nat :=
  {u | u < 0x100 ∧ (u = 0 ∨ u ∈ unitsFrom 1 (writerTlv ndef) ∨ u ∈ unitsFrom 2 (writerTlv ndef))}

/-- **The writer on a Type 5 tag that may answer anything.** At every moment the blocks written are the first one and
those of the TLV behind a container, all of them with a number of one byte. A success leaves a valid container in front
of the message; a short one covers the message unless the tag told an even number of blocks; and a reader that the tag
answers loads the message exactly when the container opens reading and its area reaches the message's end. -/
theorem writeType5_loads (uid ndef : Frame) (memory : File Byte) (systemInfo systemInfoExt : Option Frame)
    (hndef : 1 < ndef.length) {left : RfExchange Bool} {t : TagState}
    (hreach : Dialogue.Reaches (AnsweringType5Step uid systemInfo systemInfoExt ∅) (writeType5Impl uid ndef)
    ⟨memory, []⟩
      left t) :
    WroteWithin (writerBlocks ndef) ⟨memory, []⟩ t ∧
      (left = .done true → (containerOf t.memory).ccValid = true ∧
        (ccLenOf t.memory = 4 → ((writerGeometry systemInfo).1 = 0 ∨ (writerGeometry systemInfo).1 % 2 = 1) →
          tlvEnvelopeLen ndef.length ≤ (containerOf t.memory).dataAreaSizeBytes.toNat) ∧
        ∀ wide transceive disabled dstCap,
          Type5Answering t.memory uid wide transceive (ccLenOf t.memory + tlvEnvelopeLen ndef.length) →
          0 < dstCap → ndef.length ≤ dstCap →
            (loadType5NdefMessage (.over transceive uid) systemInfo systemInfoExt disabled dstCap = some ndef ↔
              (type5InfoOf t.memory systemInfo systemInfoExt).readAccessOpen = true ∧
                AreaReaches (type5InfoOf t.memory systemInfo systemInfoExt) ndef.length)) := by
  have hwrites : Writes (AnsweringType5Step uid systemInfo systemInfoExt ∅) (writerBlocks ndef)
      (fun ok t => ok = true → tlvEnvelopeLen ndef.length ≤ 880 ∧ (containerOf t.memory).ccValid = true ∧
        (ccLenOf t.memory = 4 → ((writerGeometry systemInfo).1 = 0 ∨ (writerGeometry systemInfo).1 % 2 = 1) →
          tlvEnvelopeLen ndef.length ≤ (containerOf t.memory).dataAreaSizeBytes.toNat) ∧
        Has t.memory (ccLenOf t.memory) (messageTlv ndef)) (writeType5Impl uid ndef) ⟨memory, []⟩ := by
    refine writes_writeType5Impl _ fun existing update htlv hupdates _ => ⟨?_, fun t hwithin hwrote => ?_⟩
    · obtain ⟨-, hpos, hle, -⟩ := hupdates.layout
      rintro u ⟨-, hone, ⟨hzero, -⟩ | hmem⟩
      · exact ⟨hone, .inl hzero⟩
      · refine ⟨hone, .inr ?_⟩
        rcases (show update.firstDataBlock = 1 ∨ update.firstDataBlock = 2 by omega) with hfirst | hfirst
        · exact .inl (hfirst ▸ hmem)
        · exact .inr (hfirst ▸ hmem)
    · obtain ⟨heq, -, hfits⟩ := writerTlv_spec htlv
      have hlen : (writerTlv ndef).length = tlvEnvelopeLen ndef.length := by rw [heq, messageTlv_length]
      have hlong := le_tlvEnvelopeLen ndef.length
      have hcounted := writerGeometry_le systemInfo
      obtain ⟨hvalid, hccLen, hcovers⟩ := hwrote.container hupdates hwithin (by omega) (by omega) hcounted
      obtain ⟨hlayout, -, -, -⟩ := hupdates.layout
      refine ⟨hfits, hvalid, fun hfour hodd => ?_, ?_⟩
      · have hmlen := hcovers (hccLen.symm.trans hfour)
        have hfirst : update.firstDataBlock = 1 := by omega
        have henough := writerMlen_covers (Nat.le_trans (Nat.le_of_eq hlen) hfits) hcounted hodd
          fun hne => hfirst ▸ hwrote.fits hne
        rw [(containerOf_valid hvalid).2 fun hzero => ?_]
        · omega
        · rw [ccLenOf, if_pos hzero] at hfour
          exact absurd hfour (by decide)
      · have hstored := hwrote.stored
        rwa [← hlayout, ← hccLen, heq] at hstored
  obtain ⟨hwithin, hdone⟩ := Dialogue.Holds.reaches hwrites hreach
  refine ⟨hwithin, fun hleft => ?_⟩
  obtain ⟨hfits, hvalid, hcovers, hstored⟩ := hdone true hleft rfl
  exact ⟨hvalid, hcovers, fun wide transceive disabled dstCap hload hpos hcap =>
    loadType5_stored_iff disabled hvalid hfits hload hstored hpos hcap⟩

/-- The blocks of a TLV behind the container of a tag, and that of a container that has to grow. -/
def keptBlocks (nbBlocks : Nat) (ndef : Frame) (memory : File Byte) : Set Nat :=
  {u | (containerOf memory).writeAccessOpen = true ∧ (u ∈ unitsFrom (ccLenOf memory / 4) (writerTlv ndef) ∨
    u = 0 ∧ ccLenOf memory = 4 ∧ (memory 2).toNat < writerMlen nbBlocks 1 (writerTlv ndef).length)}

/-- **The writer on a tag with a valid container** that answers the READs of it. A container that closes writing stays,
and the blocks behind it too; an open one keeps its form, and its bytes but the size of a short area, which only grows:
where it declares less than the TLV needs, or less than eight units on a tag that has them. -/
theorem writeType5_keeps (uid ndef : Frame) (memory : File Byte) (systemInfo systemInfoExt : Option Frame)
    (blocks : Set Byte) (hvalid : (containerOf memory).ccValid = true) (hanswers : AnswersCc blocks memory)
    {left : RfExchange Bool} {t : TagState}
    (hreach : Dialogue.Reaches (AnsweringType5Step uid systemInfo systemInfoExt blocks) (writeType5Impl uid ndef)
      ⟨memory, []⟩ left t) :
    WroteWithin (keptBlocks (writerGeometry systemInfo).1 ndef memory) ⟨memory, []⟩ t ∧
      (left = .done true → (memory 2).toNat ≤ (t.memory 2).toNat ∧
        ∀ i < ccLenOf memory, i ≠ 2 → t.memory i = memory i) := by
  have hwrites : Writes (AnsweringType5Step uid systemInfo systemInfoExt blocks)
      (keptBlocks (writerGeometry systemInfo).1 ndef memory) (fun ok t => ok = true →
        (memory 2).toNat ≤ (t.memory 2).toNat ∧ ∀ i < ccLenOf memory, i ≠ 2 → t.memory i = memory i)
      (writeType5Impl uid ndef) ⟨memory, []⟩ := by
    refine writes_writeType5Impl _ fun existing update htlv hupdates hknown => ?_
    have hcontainer := hknown hanswers
    rw [hcontainer]
    cases hupdates with
    | keeps hvalid hcovers =>
        refine ⟨?_, fun t hwithin hwrote => ?_⟩
        · rintro u ⟨hopen, -, ⟨-, hnone⟩ | hmem⟩
          · exact absurd hnone Bool.false_ne_true
          · exact ⟨hopen hvalid, .inl hmem⟩
        · have hcases := ccLenOf_cases memory
          have hsame (i : Nat) (hi : i < ccLenOf memory) : t.memory i = memory i := by
            refine hwithin.outside i fun hmem => ?_
            obtain ⟨-, -, ⟨-, hnone⟩ | ⟨hlow, -⟩⟩ := hmem
            · exact absurd hnone Bool.false_ne_true
            · dsimp only at hlow
              omega
          exact ⟨by rw [hsame 2 (by omega)], fun i hi _ => hsame i hi⟩
    | grows hvalid hshort hsmall =>
        refine ⟨?_, fun t hwithin hwrote => ?_⟩
        · rintro u ⟨hopen, -, ⟨hzero, -⟩ | hmem⟩
          · exact ⟨hopen hvalid, .inr ⟨hzero, hshort, hsmall⟩⟩
          · refine ⟨hopen hvalid, .inl ?_⟩
            rwa [hshort]
        · have hpage := hwrote.page _ rfl
          refine ⟨?_, fun i hi hne => ?_⟩
          · rw [show t.memory 2 = _ from hpage 2 (show 2 < 4 by decide)]
            exact (toNat_writerMlen _ _ _).symm ▸ Nat.le_of_lt hsmall
          · have hcell : i = 0 ∨ i = 1 ∨ i = 3 := by
              rw [hshort] at hi
              omega
            rcases hcell with rfl | rfl | rfl
            · exact hpage 0 (show 0 < 4 by decide)
            · exact hpage 1 (show 1 < 4 by decide)
            · exact hpage 3 (show 3 < 4 by decide)
    | initialises hinvalid => exact absurd hvalid (by rw [← hcontainer, hinvalid]; decide)
    | leaves hinvalid => exact absurd hvalid (by rw [← hcontainer, hinvalid]; decide)
  obtain ⟨hwithin, hdone⟩ := Dialogue.Holds.reaches hwrites hreach
  exact ⟨hwithin, fun hleft => hdone true hleft rfl⟩

/-! ### A tag that does what it is told -/

/-- A tag without a UID in its commands that tells nothing of its blocks. -/
def obedientType5 (s : TagState) : Request → Option Frame × TagState
  | .command [_, cmd, block] =>
      (if cmd = iso15693CmdReadSingleBlock then some (0 :: bytesAt s.memory (4 * block.toNat) 4) else none, s)
  | .command [_, _, block, a, b, c, d] => (some [0], s.write block.toNat [a, b, c, d])
  | .command [_, _, low, high, a, b, c, d] => (some [0], s.write (bigEndian high low).toNat [a, b, c, d])
  | _ => (none, s)

theorem bigEndian_bytes (block : Word) : bigEndian ((block >>> 8).setWidth 8) (block.setWidth 8) = block := by
  have hlt := block.isLt
  apply BitVec.eq_of_toNat_eq
  rw [bigEndian_toNat, BitVec.toNat_setWidth, BitVec.toNat_setWidth, BitVec.toNat_ushiftRight,
    Nat.shiftRight_eq_div_pow]
  omega

theorem obedientType5_steps (s : TagState) (request : Request) :
    AnsweringType5Step [] none none Set.univ s request (obedientType5 s request).1 (obedientType5 s request).2 where
  read block := by
    rintro rfl
    exact ⟨rfl, dataCutFrom_bytesAt _⟩
  extRead block := by
    rintro rfl
    exact ⟨rfl, fun flags data h => absurd h.symm (Option.some_ne_none _)⟩
  write block data hdata := by
    rintro rfl
    obtain ⟨a, b, c, d, rfl⟩ := List.length_eq_four.mp hdata
    exact ⟨rfl, FileUpdate.agreeOutside_patch _ _ (by rw [hdata])⟩
  extWrite block data hdata := by
    rintro rfl
    obtain ⟨a, b, c, d, rfl⟩ := List.length_eq_four.mp hdata
    change (s.write (bigEndian ((block >>> 8).setWidth 8) (block.setWidth 8)).toNat [a, b, c, d]).written = _ ∧
      FileUpdate.AgreeOutside _ (s.write (bigEndian ((block >>> 8).setWidth 8) (block.setWidth 8)).toNat _).memory _ _
    rw [bigEndian_bytes]
    exact ⟨rfl, FileUpdate.agreeOutside_patch _ _ (by rw [hdata])⟩
  systemInfo := by
    rintro rfl
    exact ⟨rfl, rfl⟩
  systemInfoExt := by
    rintro rfl
    exact ⟨rfl, rfl⟩
  answered block _ := by
    rintro rfl
    exact ⟨0, _, rfl, rfl, by rw [bytesAt_length]⟩

theorem obedientType5_within (s : TagState) (request : Request) :
    AnsweringType5Step [] none none ∅ s request (obedientType5 s request).1 (obedientType5 s request).2 :=
  ⟨(obedientType5_steps s request).toType5Step, fun _ h => absurd h (Set.notMem_empty _)⟩

/-- A tag that declares eight bytes. -/
def smallContainer : File Byte := memoryOf 0 [forumCcMagic, t5tCcVerAccess, 0x01, 0x00]

def smallMessage : Frame := [0xD0, 0x00, 0x00, 0xD0, 0x00, 0x00]

theorem writerTlv_small : writerTlv smallMessage = messageTlv smallMessage := writerTlv_eq (by decide) (by decide)

theorem smallContainer_written :
    ((writeType5Impl [] smallMessage).run obedientType5 ⟨smallContainer, []⟩).1 = true := by
  rw [writeType5Impl, writerTlv_small]
  decide

theorem smallContainer_reaches {t : TagState}
    (ht : t = ((writeType5Impl [] smallMessage).run obedientType5 ⟨smallContainer, []⟩).2) :
    (type5InfoOf t.memory none none).readAccessOpen = true ∧
      AreaReaches (type5InfoOf t.memory none none) smallMessage.length := by
  rw [ht, writeType5Impl, writerTlv_small, AreaReaches]
  decide

theorem singleReads_answering (memory : File Byte) (uid : Frame) (len : Nat) :
    Type5Answering memory uid false (singleReads memory) len :=
  ⟨singleReads_answers uid, fun _ _ => ⟨_, singleReads_userRead uid _, by rw [bytesAt_length, t5UserBlockSize]⟩⟩

theorem writeType5_loads_small : ∃ t, WroteWithin (writerBlocks smallMessage) ⟨smallContainer, []⟩ t ∧
    loadType5NdefMessage (.over (singleReads t.memory) []) none none false 6 = some smallMessage := by
  have hrun := Dialogue.reaches_run obedientType5_within (writeType5Impl [] smallMessage) ⟨smallContainer, []⟩
  obtain ⟨hwithin, hloads⟩ := writeType5_loads [] smallMessage smallContainer none none (by decide) hrun
  obtain ⟨-, -, hload⟩ := hloads (by rw [smallContainer_written])
  exact ⟨_, hwithin, (hload false _ false 6 (singleReads_answering _ [] _) (by decide) (by decide)).mpr
    (smallContainer_reaches rfl)⟩

theorem writeType5_keeps_small : ∃ t, WroteWithin (keptBlocks 0 smallMessage smallContainer) ⟨smallContainer, []⟩ t ∧
    ∀ i < 4, i ≠ 2 → t.memory i = smallContainer i := by
  have hrun := Dialogue.reaches_run obedientType5_steps (writeType5Impl [] smallMessage) ⟨smallContainer, []⟩
  obtain ⟨hwithin, hkeeps⟩ := writeType5_keeps [] smallMessage smallContainer none none Set.univ (by decide)
    ⟨Set.mem_univ 0, fun _ => Set.mem_univ 1⟩ hrun
  exact ⟨_, hwithin, (hkeeps (by rw [smallContainer_written])).2⟩

end NeroReader.Tags
