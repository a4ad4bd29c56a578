import NeroReader.TagWrites
import NeroReader.Type5Write

/-!
The reader's own NDEF writer and loader. Writing reads the capability container, builds the message TLV into a
buffer as large as the data area, up to a limit, and writes it over the first units of the area. Loading reads the
container again and the area behind it, up to a limit of its own, and returns the first message.
-/

namespace NeroReader.Tags

open Ndef Storage
open HostStorage (sysInfoMinReplyLen extSysInfoMinReplyLen sysInfoRawFieldMax systemInfoResponseOk applySystemInfo
  applySystemInfoExt ccSignalsMlenOverflow resolveMlenOverflow type5DeclaredCcLen)

def readerType2RawReadMax : Nat := type2CcPrefixBytes + type2TagDumpMax

/-! ### What is known of a tag -/

/-- `reader_tags_get_type2_storage_info`, behind its read of the container page. -/
def type2StorageInfo (page3 : Option Frame) : Option Type2Info :=
  match page3.filter (t2tPageSizeBytes ≤ ·.length) with
  | none => none
  | some page3 =>
      let info := type2ApplyCc (page3.take t2tPageSizeBytes)
      if info.ccValid then some info else none

/-- `reader_tags_type2_last_page`. -/
def readerType2LastPage (type2 : Type2Info) : Option Word :=
  if type2.ccValid = false ∨ type2.dataAreaSizeBytes = 0 then none else type2LastPage type2.dataAreaSizeBytes

/-- `reader_tags_type2_read_cap`. -/
def type2ReadCap (type2 : Type2Info) : Option Nat :=
  match readerType2LastPage type2 with
  | none => none
  | some lastPage =>
      if lastPage.toNat < type2CcPage then none
      else some ((lastPage.toNat - type2CcPage + 1) * t2tPageSizeBytes)

section Type5

variable {m : Type → Type} [Monad m]

/-- A page buffer, filled by an answer that is long enough. -/
def ccPage (answer : Option Frame) : Option Frame :=
  (answer.filter (t5tCcLenShort ≤ ·.length)).map (·.take t5tCcLenShort)

/-- The first block belongs to an extended container. -/
def declaresTwoBlocks (page0 : Frame) : Bool :=
  (u8At page0 0 == forumCcMagic || u8At page0 0 == t5tCcMagic8Byte) &&
    type5DeclaredCcLen page0 == t5tCcLenExtended

/-- The container, as `reader_tags_get_type5_info` reads it. -/
def readType5Cc (readBlock : Word → m (Option Frame)) : m Type5Cc :=
  readBlock 0 >>= fun answer =>
    match ccPage answer with
    | none => pure clearedCc
    | some page0 =>
        if declaresTwoBlocks page0 then
          readBlock 1 >>= fun answer =>
            match ccPage answer with
            | none => pure (type5ApplyCc page0)
            | some page1 => pure (type5ApplyCc (page0 ++ page1))
        else pure (type5ApplyCc page0)

/-- What `reader_tags_get_type5_info` adds from the tag's system information. -/
def addSystemInfo (info : Type5Info) (systemInfo systemInfoExt : m (Option Frame)) : m Type5Info :=
  systemInfo >>= fun answer =>
    match answer.filter (systemInfoResponseOk sysInfoMinReplyLen) with
    | none => pure info
    | some raw =>
        let info := applySystemInfo info (raw.take sysInfoRawFieldMax)
        if ccSignalsMlenOverflow info.toType5Cc then
          systemInfoExt >>= fun answer =>
            match answer.filter (systemInfoResponseOk extSysInfoMinReplyLen) with
            | none => pure (resolveMlenOverflow info)
            | some raw => pure (resolveMlenOverflow (applySystemInfoExt info (raw.take sysInfoRawFieldMax)))
        else pure (resolveMlenOverflow info)

/-- `reader_tags_get_type5_info`. -/
def getType5Info (readBlock : Word → m (Option Frame)) (systemInfo systemInfoExt : m (Option Frame)) : m Type5Info :=
  readType5Cc readBlock >>= fun cc =>
    addSystemInfo { toType5Cc := cc, blockSize := 0, blockCount := 0 } systemInfo systemInfoExt

end Type5

/-! ### Writing -/

/-- The checks of `reader_tags_write_type2_ndef_message`, and the TLV it goes on to write. -/
def type2NdefTlv (type2 : Type2Info) (ndef : Frame) : Option Frame :=
  if type2.ccValid = false ∨ type2.writeAccessOpen = false ∨ type2.dataAreaSizeBytes = 0 then none
  else
    let built := buildMessageTlv ndef (List.replicate (min type2.dataAreaSizeBytes.toNat readerType2RawReadMax) 0)
    if built.ok = false then none
    else
      match ceilUnits (BitVec.ofNat 16 built.outLen) type2UnitSize, readerType2LastPage type2 with
      | some pagesNeeded, some lastPage =>
          if pagesNeeded = 0 ∨ lastPage.toNat < type2CcPrefixBytes + (pagesNeeded.toNat - 1) then none
          else some built.written
      | _, _ => none

/-- `reader_tags_write_type2_ndef_message`. -/
def writeType2NdefMessage (ndef : Frame) : RfExchange Bool :=
  readPage (BitVec.ofNat 8 type2CcPage) >>= fun page3 =>
    match type2StorageInfo page3 with
    | none => pure false
    | some type2 =>
        match type2NdefTlv type2 ndef with
        | none => pure false
        | some tlv => writeStorageTlvUnits type2WriteUnit tlv (BitVec.ofNat 16 type2FirstDataPage) type2UnitSize

/-- The checks of `reader_tags_write_type5_ndef_message`: the TLV it goes on to write, and its first block. -/
def type5NdefTlv (type5 : Type5Info) (ndef : Frame) : Option (Frame × Word) :=
  if type5.ccValid = false ∨ type5.writeAccessOpen = false ∨ type5.dataAreaSizeBytes = 0 then none
  else if type5.unitSize ≠ type5BlockSize then none
  else
    let built := buildMessageTlv ndef (List.replicate (min type5.dataAreaSizeBytes.toNat ndefBufMax) 0)
    if built.ok = false then none
    else
      match type5DataBlocks (type5CcByteLen type5) type5.dataAreaSizeBytes type5.unitSize type5.blockCount,
          ceilUnits (BitVec.ofNat 16 built.outLen) type5BlockSize with
      | some (firstDataBlock, lastDataBlock), some blocksNeeded =>
          if blocksNeeded = 0 ∨ lastDataBlock.toNat < firstDataBlock.toNat + blocksNeeded.toNat - 1 then none
          else some (built.written, firstDataBlock)
      | _, _ => none

/-- `reader_tags_write_type5_ndef_message`. -/
def writeType5NdefMessage (uid ndef : Frame) : RfExchange Bool :=
  getType5Info (readBlock uid) (send (systemInfoCommand uid)) (send (systemInfoExtCommand uid)) >>= fun type5 =>
    match type5NdefTlv type5 ndef with
    | none => pure false
    | some (tlv, startBlock) => writeStorageTlvUnits (type5WriteBlock uid) tlv startBlock type5BlockSize

/-! ### Loading -/

/-- What a loader returns of the bytes it read: the first message behind the container. -/
def loadedMessage (raw : Option Frame) (ccLen dstCap : Nat) : Option Frame :=
  match raw.filter (ccLen ≤ ·.length) with
  | none => none
  | some raw =>
      let found := findMessageTlv raw ccLen
      if found.1 ≠ .ok then none
      else if dstCap < found.2.valueLen then none
      else some (found.2.value raw)

/-- `reader_tags_load_type2_ndef_message`. -/
def loadType2NdefMessage (tag : Type2Tag) (fastReadAllowed : Bool) (dstCap : Nat) : Option Frame :=
  match type2StorageInfo (tag.read type2CcPage) with
  | none => none
  | some type2 =>
      if dstCap = 0 ∨ type2.ccValid = false ∨ type2.readAccessOpen = false ∨ type2.dataAreaSizeBytes = 0 then none
      else
        match type2ReadCap type2 with
        | none => none
        | some rawCap =>
            if 0xFFFF < type2CcPrefixBytes + type2.dataAreaSizeBytes.toNat then none
            else
              let rawLen := min (min (type2CcPrefixBytes + type2.dataAreaSizeBytes.toNat) readerType2RawReadMax) rawCap
              loadedMessage (returned (type2ReadBinary tag fastReadAllowed type2CcPage rawLen).1) type2CcPrefixBytes
                dstCap

/-- `reader_tags_load_type5_ndef_message`. -/
def loadType5NdefMessage (tag : Type5Tag) (systemInfo systemInfoExt : Option Frame) (disabled : Bool) (dstCap : Nat) :
    Option Frame :=
  let type5 : Type5Info := @getType5Info Id _ (fun block => tag.readBlock block.toNat) systemInfo systemInfoExt
  if dstCap = 0 ∨ type5.ccValid = false ∨ type5.readAccessOpen = false ∨ type5.dataAreaSizeBytes = 0 then none
  else
    let ccLen := (type5CcByteLen type5).toNat
    if ccLen = 0 ∨ 0xFFFF < ccLen + type5.dataAreaSizeBytes.toNat then none
    else
      let rawLen := min (ccLen + type5.dataAreaSizeBytes.toNat) ndefBufMax
      loadedMessage (returned (type5ReadBinary tag disabled 0 rawLen).1) ccLen dstCap

end NeroReader.Tags
