import Mathlib.Algebra.Group.Nat.Defs
import Mathlib.Data.List.GetD
import NeroReader.TagReading

/-!
The commands that read a Type 2 or a Type 5 tag, down to their bytes, and what a tag's answers to them promise. A
unit number has one byte in the Type 2 commands and in the short Type 5 commands, and two in the extended ones. A
tag may refuse any command or cut any answer short; what it does answer are the bytes of its memory from the unit
asked for, as far as the command has numbers for them.
-/

namespace NeroReader.Tags

open Ndef Storage

def ntagCmdRead : Byte := 0x30
def ntagCmdFastRead : Byte := 0x3A
def iso15693FlagsAddressed : Byte := 0x22
def iso15693FlagProtocolExtension : Byte := 0x08
def iso15693CmdReadSingleBlock : Byte := 0x20
def iso15693CmdExtReadSingle : Byte := 0x30
def iso15693CmdReadMultiple : Byte := 0x23
def iso15693CmdExtReadMultiple : Byte := 0x33
def iso15693RespFlagError : Byte := 0x01
def iso15693MinStatusRx : Nat := 2
def iso15693BlockAddr1ByteMax : Nat := 0xFF

/-- The front end: its answer to a command, none where it reports an error. -/
abbrev Transceive := Frame → Option Frame

/-! ### Type 2 commands -/

def ntagReadCommand (page : Byte) : Frame := [ntagCmdRead, page]

def ntagFastReadCommand (firstPage lastPage : Byte) : Frame := [ntagCmdFastRead, firstPage, lastPage]

/-- `reader_tags_ntag_read_page`. -/
def ntagReadPage (transceive : Transceive) (page : Byte) : Option Frame :=
  (transceive (ntagReadCommand page)).map (·.take t2tReadRespBytes)

/-- A Type 2 tag behind a front end. -/
def Type2Tag.over (transceive : Transceive) (family : Type2Family) (maxUserPage : Nat) : Type2Tag where
  family := family
  maxUserPage := maxUserPage
  read page := ntagReadPage transceive (BitVec.ofNat 8 page)
  fastRead firstPage lastPage :=
    transceive (ntagFastReadCommand (BitVec.ofNat 8 firstPage) (BitVec.ofNat 8 lastPage))

/-! ### GET_VERSION -/

def ntagCmdGetVersion : Byte := 0x60
def ntagCmdReadSig : Byte := 0x3C
def ntagVerReplyLen : Nat := 8
def ntagSigReplyLen : Nat := 32
def ntagAuth0PageOffset : Nat := 2
def ntagCfgAuth0ByteIndex : Nat := 3
def mfrCodeSt : Byte := 0x02
def mfrCodeNxp : Byte := 0x04

/-- `nfc_tag_type2_max_user_page_from_size_id`. -/
def type2MaxUserPageFromSizeId (sizeId : Byte) : Nat :=
  if sizeId = 0x0F then 39 else if sizeId = 0x11 then 129 else if sizeId = 0x13 then 225 else 0

/-- `nfc_tag_type2_apply_version`: the last user page of an NTAG21x, none for any other tag. -/
def type2ApplyVersion (version : Frame) : Option Nat :=
  if ntagVerReplyLen ≤ version.length ∧ u8At version 0 = 0x00 ∧ u8At version 2 = 0x04 ∧ u8At version 3 = 0x02 ∧
      u8At version 7 = 0x03 then some (type2MaxUserPageFromSizeId (u8At version 6))
  else none

/-! ### Type 5 commands -/

def readBlockCommand (uid : Frame) (block : Byte) : Frame :=
  [iso15693FlagsAddressed, iso15693CmdReadSingleBlock] ++ uid.reverse ++ [block]

def extReadBlockCommand (uid : Frame) (block : Word) : Frame :=
  [iso15693FlagsAddressed ||| iso15693FlagProtocolExtension, iso15693CmdExtReadSingle] ++ uid.reverse ++
    [block.setWidth 8, (block >>> 8).setWidth 8]

def readMultipleCommand (uid : Frame) (firstBlock countField : Byte) : Frame :=
  [iso15693FlagsAddressed, iso15693CmdReadMultiple] ++ uid.reverse ++ [firstBlock, countField]

def extReadMultipleCommand (uid : Frame) (firstBlock countField : Word) : Frame :=
  [iso15693FlagsAddressed ||| iso15693FlagProtocolExtension, iso15693CmdExtReadMultiple] ++ uid.reverse ++
    [firstBlock.setWidth 8, (firstBlock >>> 8).setWidth 8, countField.setWidth 8, (countField >>> 8).setWidth 8]

/-- The data of an answer that is no error and has these many bytes behind its flags, at the least. -/
def answerData (answer : Option Frame) (minLen maxLen : Nat) : Option Frame :=
  answer.bind fun rx =>
    if rx.length < 1 + minLen ∨ u8At rx 0 &&& iso15693RespFlagError ≠ 0 then none else some ((rx.drop 1).take maxLen)

/-- `st25_iso15693_read_block`. -/
def iso15693ReadBlock (transceive : Transceive) (uid : Frame) (block : Byte) : Option Frame :=
  answerData (transceive (readBlockCommand uid block)) (iso15693MinStatusRx - 1) t5UserBlockSize

/-- `st25_iso15693_ext_read_block`. -/
def iso15693ExtReadBlock (transceive : Transceive) (uid : Frame) (block : Word) : Option Frame :=
  answerData (transceive (extReadBlockCommand uid block)) (iso15693MinStatusRx - 1) t5UserBlockSize

/-- `reader_tags_iso15693_user_read`. -/
def userRead (transceive : Transceive) (uid : Frame) (block : Word) : Option Frame :=
  if block.toNat ≤ iso15693BlockAddr1ByteMax then
    match iso15693ReadBlock transceive uid (block.setWidth 8) with
    | some data => some data
    | none => iso15693ExtReadBlock transceive uid block
  else iso15693ExtReadBlock transceive uid block

/-- `reader_tags_iso15693_user_read_multiple`. -/
def userReadMultiple (transceive : Transceive) (uid : Frame) (firstBlock blockCount : Word) (bufCap : Nat) :
    Option Frame :=
  if blockCount = 0 ∨ readMultipleBlocksMax < blockCount.toNat then none
  else
    let want := blockCount.toNat * t5UserBlockSize
    let countField := blockCount - 1
    if bufCap < want then none
    else
      let cmd :=
        if iso15693BlockAddr1ByteMax < firstBlock.toNat ∨ iso15693BlockAddr1ByteMax < countField.toNat then
          extReadMultipleCommand uid firstBlock countField
        else readMultipleCommand uid (firstBlock.setWidth 8) (countField.setWidth 8)
      answerData (transceive cmd) want want

/-- A Type 5 tag behind a front end. -/
def Type5Tag.over (transceive : Transceive) (uid : Frame) : Type5Tag where
  readBlock block := userRead transceive uid (BitVec.ofNat 16 block)
  readMultiple firstBlock blockCount :=
    userReadMultiple transceive uid (BitVec.ofNat 16 firstBlock) (BitVec.ofNat 16 blockCount)
      (blockCount * t5UserBlockSize)

/-! ### What an answer promises -/

/-- The answer is the memory from an address on, up to a limit. -/
def CutFrom (memory : Nat → Byte) (off limit : Nat) (rx : Frame) : Prop :=
  ∀ i < rx.length, off + i < limit → u8At rx i = memory (off + i)

theorem CutFrom.take {memory : Nat → Byte} {off limit n : Nat} {rx : Frame} (h : CutFrom memory off limit rx)
    (hlen : n ≤ rx.length) (hlimit : off + n ≤ limit) : rx.take n = bytesAt memory off n := by
  apply List.ext_getElem
  · rw [List.length_take, bytesAt_length, Nat.min_eq_left hlen]
  · intro i hi hi'
    rw [bytesAt_length] at hi'
    have hread := h i (by omega) (by omega)
    rw [u8At, List.getD_eq_getElem _ _ (by omega)] at hread
    simp only [List.getElem_take, bytesAt, List.getElem_map, List.getElem_range, hread]

theorem CutFrom.cut {memory : Nat → Byte} {off limit : Nat} {rx : Frame} (h : CutFrom memory off limit rx) (n : Nat) :
    CutFrom memory off limit (rx.take n) := by
  intro i hi hlimit
  rw [List.length_take] at hi
  rw [u8At_take rx (by omega)]
  exact h i (by omega) hlimit

/-- The answers of a Type 2 tag, as far as the pages below a limit go. What a READ answers for the pages behind
the limit is the tag's own affair. -/
structure Type2Answers (memory : Nat → Byte) (limit : Nat) (transceive : Transceive) : Prop where
  read (page : Byte) (rx : Frame) : transceive (ntagReadCommand page) = some rx →
    CutFrom memory (4 * page.toNat) limit rx
  fastRead (firstPage lastPage : Byte) (rx : Frame) : firstPage.toNat ≤ lastPage.toNat →
    transceive (ntagFastReadCommand firstPage lastPage) = some rx → CutFrom memory (4 * firstPage.toNat) limit rx

/-- A front end in front of a Type 2 memory. -/
def pageReads (memory : Nat → Byte) : Transceive
  | [cmd, page] => if cmd = ntagCmdRead then some (bytesAt memory (4 * page.toNat) 16) else none
  | [cmd, firstPage, lastPage] =>
      if cmd = ntagCmdFastRead then some
        (bytesAt memory (4 * firstPage.toNat) (4 * (lastPage.toNat + 1 - firstPage.toNat)))
      else none
  | _ => none

theorem cutFrom_bytesAt (memory : Nat → Byte) (off limit len : Nat) :
    CutFrom memory off limit (bytesAt memory off len) := by
  intro i hi _
  rw [bytesAt_length] at hi
  exact u8At_bytesAt _ _ hi

theorem pageReads_answers (memory : Nat → Byte) (limit : Nat) : Type2Answers memory limit (pageReads memory) where
  read page rx hrx := by
    obtain rfl := Option.some.inj hrx
    exact cutFrom_bytesAt _ _ _ _
  fastRead firstPage lastPage rx _ hrx := by
    obtain rfl := Option.some.inj hrx
    exact cutFrom_bytesAt _ _ _ _

/-- The data behind the flags of an answer without the error flag. -/
def DataCutFrom (memory : Nat → Byte) (off limit : Nat) (answer : Option Frame) : Prop :=
  ∀ flags data, answer = some (flags :: data) → flags &&& iso15693RespFlagError = 0 → CutFrom memory off limit data

/-- The end of the blocks that a number of this many bits can name. -/
def blocksEnd (bits : Nat) : Nat := 4 * 2 ^ bits

/-- The answers of a Type 5 tag. A short READ MULTIPLE names blocks of one byte; a `wide` tag goes on counting
behind block 255, of another it is not known what follows. -/
structure Type5Answers (memory : Nat → Byte) (uid : Frame) (wide : Bool) (transceive : Transceive) : Prop where
  readBlock (block : Byte) :
    DataCutFrom memory (4 * block.toNat) (4 * block.toNat + 4) (transceive (readBlockCommand uid block))
  extReadBlock (block : Word) :
    DataCutFrom memory (4 * block.toNat) (4 * block.toNat + 4) (transceive (extReadBlockCommand uid block))
  readMultiple (firstBlock countField : Byte) :
    DataCutFrom memory (4 * firstBlock.toNat) (blocksEnd (if wide then 16 else 8))
      (transceive (readMultipleCommand uid firstBlock countField))
  extReadMultiple (firstBlock countField : Word) :
    DataCutFrom memory (4 * firstBlock.toNat) (blocksEnd 16)
      (transceive (extReadMultipleCommand uid firstBlock countField))

/-! ### The tags behind the front end -/

section Answers

variable {memory : Nat → Byte} {transceive : Transceive}

theorem Type2Answers.over_read {limit page : Nat} {rx : Frame} {family : Type2Family} {maxUserPage : Nat}
    (h : Type2Answers memory limit transceive) (hpage : page ≤ 0xFF)
    (hrx : (Type2Tag.over transceive family maxUserPage).read page = some rx) : CutFrom memory (4 * page) limit rx := by
  obtain ⟨answer, hanswer, rfl⟩ := Option.map_eq_some_iff.mp hrx
  have hcut := (h.read (BitVec.ofNat 8 page) answer hanswer).cut t2tReadRespBytes
  rwa [BitVec.toNat_ofNat, Nat.mod_eq_of_lt (by omega)] at hcut

theorem Type2Answers.over_fastRead {limit first last : Nat} {rx : Frame} {family : Type2Family} {maxUserPage : Nat}
    (h : Type2Answers memory limit transceive) (hle : first ≤ last) (hlast : last ≤ 0xFF)
    (hrx : (Type2Tag.over transceive family maxUserPage).fastRead first last = some rx) :
    CutFrom memory (4 * first) limit rx := by
  have hfirstNat : (BitVec.ofNat 8 first).toNat = first := by
    rw [BitVec.toNat_ofNat, Nat.mod_eq_of_lt (by omega)]
  have hlastNat : (BitVec.ofNat 8 last).toNat = last := by
    rw [BitVec.toNat_ofNat, Nat.mod_eq_of_lt (by omega)]
  have hcut := h.fastRead (BitVec.ofNat 8 first) (BitVec.ofNat 8 last) rx (by rwa [hfirstNat, hlastNat]) hrx
  rwa [hfirstNat] at hcut

theorem DataCutFrom.answerData {off limit minLen maxLen : Nat} {answer : Option Frame} {data : Frame}
    (h : DataCutFrom memory off limit answer) (hdata : answerData answer minLen maxLen = some data) :
    CutFrom memory off limit data ∧ min minLen maxLen ≤ data.length := by
  obtain ⟨rx, rfl, hrx⟩ := Option.bind_eq_some_iff.mp hdata
  split at hrx
  next => exact absurd hrx (by simp)
  next hok =>
    obtain ⟨hlen, hflag⟩ := not_or.mp hok
    rw [not_not] at hflag
    cases rx with
    | nil =>
        rw [List.length_nil] at hlen
        omega
    | cons flags rest =>
        obtain rfl := Option.some.inj hrx
        refine ⟨(h flags rest rfl hflag).cut maxLen, ?_⟩
        rw [List.drop_succ_cons, List.drop_zero, List.length_take]
        rw [List.length_cons] at hlen
        omega

theorem Type5Answers.over_readBlock {uid rx : Frame} {wide : Bool} {block : Nat}
    (h : Type5Answers memory uid wide transceive) (hblock : block < 0x10000)
    (hrx : (Type5Tag.over transceive uid).readBlock block = some rx) :
    CutFrom memory (4 * block) (4 * block + 4) rx := by
  have hword : (BitVec.ofNat 16 block).toNat = block := by
    rw [BitVec.toNat_ofNat, Nat.mod_eq_of_lt (by omega)]
  have hext (data : Frame) (hdata : iso15693ExtReadBlock transceive uid (BitVec.ofNat 16 block) = some data) :
      CutFrom memory (4 * block) (4 * block + 4) data := by
    have := ((h.extReadBlock (BitVec.ofNat 16 block)).answerData hdata).1
    rwa [hword] at this
  change userRead transceive uid (BitVec.ofNat 16 block) = some rx at hrx
  rw [userRead, hword, iso15693BlockAddr1ByteMax] at hrx
  split at hrx
  next hshort =>
    split at hrx
    next data hdata =>
      obtain rfl := Option.some.inj hrx
      have hbyte : ((BitVec.ofNat 16 block).setWidth 8).toNat = block := by
        rw [BitVec.toNat_setWidth, hword, Nat.mod_eq_of_lt (by omega)]
      have := ((h.readBlock _).answerData hdata).1
      rwa [hbyte] at this
    next => exact hext rx hrx
  next => exact hext rx hrx

/-- Where the blocks end that the command for several blocks can name. -/
def multipleEnd (wide : Bool) (first : Nat) : Nat :=
    blocksEnd (if wide ∨ iso15693BlockAddr1ByteMax < first then 16 else 8)

theorem Type5Answers.over_readMultiple {uid rx : Frame} {wide : Bool} {first count : Nat}
    (h : Type5Answers memory uid wide transceive) (hfirst : first < 0x10000) (hcount : count ≤ readMultipleBlocksMax)
    (hrx : (Type5Tag.over transceive uid).readMultiple first count = some rx) :
    CutFrom memory (4 * first) (multipleEnd wide first) rx ∧ count * t5UserBlockSize ≤ rx.length := by
  rw [readMultipleBlocksMax] at hcount
  have hword : (BitVec.ofNat 16 first).toNat = first := by
    rw [BitVec.toNat_ofNat, Nat.mod_eq_of_lt (by omega)]
  have hcountWord : (BitVec.ofNat 16 count).toNat = count := by
    rw [BitVec.toNat_ofNat, Nat.mod_eq_of_lt (by omega)]
  change userReadMultiple transceive uid (BitVec.ofNat 16 first) (BitVec.ofNat 16 count) _ = some rx at hrx
  rw [userReadMultiple, hcountWord, hword] at hrx
  split at hrx
  next => exact absurd hrx (by simp)
  next hrange =>
    have hne : BitVec.ofNat 16 count ≠ 0 := fun hz => hrange (Or.inl hz)
    have hfield : (BitVec.ofNat 16 count - 1).toNat ≤ 30 := by
      have hpos : 0 < count := by
        rcases Nat.eq_zero_or_pos count with rfl | hpos
        · exact absurd rfl hne
        · exact hpos
      rw [BitVec.toNat_sub, hcountWord, show (1 : Word).toNat = 1 from rfl]
      omega
    dsimp only at hrx
    rw [if_neg (Nat.lt_irrefl _)] at hrx
    split at hrx
    next hext =>
      have hbig : iso15693BlockAddr1ByteMax < first := by
        rw [iso15693BlockAddr1ByteMax] at hext ⊢
        omega
      obtain ⟨hcut, hlen⟩ := (h.extReadMultiple _ _).answerData hrx
      rw [hword] at hcut
      rw [Nat.min_self] at hlen
      refine ⟨?_, hlen⟩
      rwa [multipleEnd, if_pos (Or.inr hbig)]
    next hshort =>
      obtain ⟨hcut, hlen⟩ := (h.readMultiple _ _).answerData hrx
      have hsmall := (not_or.mp hshort).1
      have hbyte : ((BitVec.ofNat 16 first).setWidth 8).toNat = first := by
        rw [iso15693BlockAddr1ByteMax] at hsmall
        rw [BitVec.toNat_setWidth, hword, Nat.mod_eq_of_lt (by omega)]
      rw [hbyte] at hcut
      rw [Nat.min_self] at hlen
      refine ⟨?_, hlen⟩
      rw [multipleEnd]
      cases wide with
      | true => simpa using hcut
      | false => simpa [hsmall] using hcut

end Answers

end NeroReader.Tags
