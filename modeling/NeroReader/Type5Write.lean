import NeroReader.BulkWrite
import NeroReader.Type5Addressing

/-!
The host's writer of a Type 5 NDEF area, `WriteType5StorageNdef`. It reads the capability container and the
system information, builds the message TLV, enlarges a short container that declares too little, and writes the
TLV behind it. Every step goes by the storage commands first and by a transparent ISO 15693 command behind them.
-/

namespace NeroReader.HostStorage

open Storage Ndef
open HostApdu (responseSwOk)

def insGetData : Byte := 0xCA
def insTransparent : Byte := 0xC2
def getDataAts : Byte := 0x01
def getDataType5SysInfo : Byte := 0x06
def getDataType5Cc : Byte := 0x0A
def getDataP2Default : Byte := 0x00
def iso15693UidLen : Nat := 8
def iso15693FlagsAddressed : Byte := 0x22
def iso15693FlagProtocolExtension : Byte := 0x08
def iso15693RespFlagError : Byte := 0x01
def iso15693CmdReadSingle : Byte := 0x20
def iso15693CmdWriteSingle : Byte := 0x21
def iso15693CmdGetSysInfo : Byte := 0x2B
def iso15693CmdExtReadSingle : Byte := 0x30
def iso15693CmdExtWriteSingle : Byte := 0x31
def iso15693CmdExtGetSysInfo : Byte := 0x3B
def extSysInfoRequestFields : Byte := 0x0F
def sysInfoPreambleLen : Nat := 2
def sysInfoMinReplyLen : Nat := 10
def extSysInfoMinReplyLen : Nat := 12
def sysInfoExtMinReplyLen : Nat := 10
def sysInfoRawFieldMax : Nat := 16
def infoFlagDsfid : Byte := 0x01
def infoFlagAfi : Byte := 0x02
def infoFlagMemorySize : Byte := 0x04
def memorySizeFieldLen : Nat := 2
def extMemorySizeFieldLen : Nat := 3
def blockSizeMask : Byte := 0x1F
def mlenOverflow : Byte := 0xFF
def mlenOverflowCc3Flag : Byte := 0x04
def areaSizeUnitBytes : Nat := 8
def t5tCcVerAccess : Byte := 0x40
def ndefMaxTotalBytes : Nat := 65536

/-! ### Transparent commands -/

def type5AddressedCommand (command : Byte) (uidLsb : Frame) : Frame := [iso15693FlagsAddressed, command] ++ uidLsb

def type5AddressedBlockCommand (shortCommand extendedCommand : Byte) (uidLsb : Frame) (block : Word) : Frame :=
  if iso15693BlockAddr1ByteMax < block.toNat then
    [iso15693FlagsAddressed ||| iso15693FlagProtocolExtension, extendedCommand] ++ uidLsb ++
    [unitLow block, unitHigh block]
  else type5AddressedCommand shortCommand uidLsb ++ [unitLow block]

def type5AddressedSystemInfoExtCommand (uidLsb : Frame) : Frame :=
  [iso15693FlagsAddressed ||| iso15693FlagProtocolExtension, iso15693CmdExtGetSysInfo,
  extSysInfoRequestFields] ++ uidLsb

def transparentApdu (p2 : Byte) (cmd : Frame) : Frame :=
  [claProprietary, insTransparent, sw2Success, p2, BitVec.ofNat 8 cmd.length] ++ cmd

/-- `Type5UidLsbFirst`. -/
def type5UidLsbFirst (uid : Frame) : Except String Frame :=
  if uid.length ≠ iso15693UidLen then .error "Type 5 transparent exchange requires an 8-byte UID" else .ok uid.reverse

/-- `Type5TransparentExchange`. -/
def type5TransparentExchange (cmd : Frame) : Exchange (Except String Frame) :=
  if cmd.length = 0 ∨ byteValueMax < cmd.length then pure (.error "invalid ISO15693 transparent command length")
  else
    transmitOk (transparentApdu sw2Success cmd) >>= fun first =>
      match first with
      | .ok response => pure (.ok response)
      | .error _ => transmitOk (transparentApdu getDataAts cmd)

/-- A transparent command to the tag with this UID. -/
def type5Addressed (uid : Frame) (command : Frame → Frame) : Exchange (Except String Frame) :=
  match type5UidLsbFirst uid with
  | .error err => pure (.error err)
  | .ok uidLsb => type5TransparentExchange (command uidLsb)

/-- The block in a response to a read, with the flags byte or without. -/
def transparentBlock (response : Frame) : Except String Frame :=
  if 1 + t5tCcLenShort ≤ response.length then
    if u8At response 0 &&& iso15693RespFlagError ≠ 0 then .error "ISO15693 error flag set in transparent read response"
    else .ok ((response.drop 1).take t5tCcLenShort)
  else if t5tCcLenShort ≤ response.length then .ok (response.take t5tCcLenShort)
  else .error "short ISO15693 transparent read response"

/-- `Type5TransparentReadBlock`. -/
def type5TransparentReadBlock (uid : Frame) (block : Word) : Exchange (Except String Frame) := do
  let response ← type5Addressed uid fun uidLsb =>
    type5AddressedBlockCommand iso15693CmdReadSingle iso15693CmdExtReadSingle uidLsb block
  return response.bind transparentBlock

/-- Whether the response to a write carries no error. -/
def transparentWritten (response : Frame) : Bool :=
  response.length == 0 || u8At response 0 &&& iso15693RespFlagError == 0

/-- `Type5TransparentWriteBlock`. -/
def type5TransparentWriteBlock (uid : Frame) (block : Word) (data : Frame) : Exchange (Except String Unit) :=
  if data.length = 0 ∨ t5tCcLenExtended < data.length then pure (.error "invalid ISO15693 write block size")
  else do
    let response ← type5Addressed uid fun uidLsb =>
      type5AddressedBlockCommand iso15693CmdWriteSingle iso15693CmdExtWriteSingle uidLsb block ++ data
    return response.bind fun response =>
      if transparentWritten response then .ok () else .error "ISO15693 transparent write returned error flags"

/-! ### Blocks -/

/-- `Type5WriteBlock`. -/
def type5WriteBlock (uid : Frame) (block : Word) (data : Frame) : Exchange (Except String Unit) :=
  type5StorageUpdateBinary block data >>= fun first =>
    match first with
    | .ok _ => pure (.ok ())
    | .error storageErr => do
        let second ← type5TransparentWriteBlock uid block data
        return second.mapError (joinErrors storageErr "; transparent fallback: ")

/-- `Type5StorageWriteUnit`. -/
def type5StorageWriteUnit (uid : Frame) (unit : Word) (bytes : Frame) : Exchange (Except String Unit) :=
  if storageType5BlockSize < bytes.length then
    if byteValueMax < bytes.length ∨ bytes.length % storageType5BlockSize ≠ 0 then
      pure (.error "invalid Type 5 storage UPDATE BINARY chunk size")
    else type5StorageUpdateBinary unit bytes
  else type5WriteBlock uid unit bytes

/-! ### The capability container -/

/-- `nfc_storage_type5_declared_cc_len_from_first_block`. -/
def type5DeclaredCcLen (cc : Frame) : Nat :=
  if cc.length < t5tCcLenShort then 0 else if u8At cc 2 = 0 then t5tCcLenExtended else t5tCcLenShort

/-- `nfc_storage_type5_cc_len_or_default`. -/
def type5CcLenOrDefault (info : Type5Info) (cc : Frame) : Nat :=
  if info.ccLen ≠ 0 then info.ccLen.toNat
  else if t5tCcLenExtended ≤ cc.length ∧ u8At cc 2 = 0 then t5tCcLenExtended
  else t5tCcLenShort

/-- `ParseType5Cc`. -/
def parseType5Cc (cc : Frame) : Except String Type5Info :=
  if cc.length < t5tCcLenShort then .error "Type 5 CC read returned fewer than 4 bytes"
  else
    let info := type5ApplyCc (cc.take t5tCcLenExtended)
    if info.ccValid = false ∨ info.dataAreaSizeBytes = 0 then .error "invalid Type 5 capability container"
    else .ok { toType5Cc := info, blockSize := 0, blockCount := 0 }

/-- `TryGetDataBytes`. -/
def tryGetDataBytes (p1 p2 : Byte) : Exchange Frame := do
  let data ← transmitOk [claProprietary, insGetData, p1, p2, sw2Success]
  return data.toOption.getD []

/-- The second block of a container, behind the first. -/
def readSecondCcBlock (firstBlock : Frame) : Exchange (Except String Frame) := do
  let second ← type5StorageReadBinary 1 4
  return second.bind fun secondBlock =>
    if secondBlock.length < t5tCcLenShort then .error "short Type 5 CC READ BINARY response"
    else .ok (firstBlock ++ secondBlock.take t5tCcLenShort)

/-- `ReadType5CcStorage`. -/
def readType5CcStorage (cc : Frame) : Exchange (Except String Frame) :=
  (if t5tCcLenShort ≤ cc.length then pure (.ok (cc.take t5tCcLenShort)) else type5StorageReadBinary 0 4) >>=
  fun first =>
    match first with
    | .error err => pure (.error err)
    | .ok firstBlock =>
        let ccLen := type5DeclaredCcLen firstBlock
        if firstBlock.length < t5tCcLenShort then pure (.error "short Type 5 CC READ BINARY response")
        else if ccLen = 0 then pure (.error "invalid Type 5 CC first block")
        else if ccLen ≤ cc.length then pure (.ok (cc.take ccLen))
        else if ccLen = t5tCcLenExtended then readSecondCcBlock firstBlock
        else pure (.ok firstBlock)

/-- The container by transparent reads. -/
def readType5CcTransparent (uid : Frame) (storageErr : String) : Exchange (Except String Frame) :=
  type5TransparentReadBlock uid 0 >>= fun first =>
    match first with
    | .error err => pure (.error (joinErrors storageErr "; transparent fallback: " err))
    | .ok firstBlock =>
        if type5DeclaredCcLen firstBlock = t5tCcLenExtended then do
          let second ← type5TransparentReadBlock uid 1
          return second.map fun secondBlock => firstBlock ++ secondBlock
        else pure (.ok firstBlock)

/-- `ReadType5Cc`. -/
def readType5Cc (uid cc : Frame) : Exchange (Except String Frame) :=
  (if cc.length < t5tCcLenShort then tryGetDataBytes getDataType5Cc getDataP2Default else pure []) >>= fun cached =>
    readType5CcStorage (if cached.length = 0 then cc else cached) >>= fun storage =>
      match storage with
      | .ok cc => pure (.ok cc)
      | .error storageErr => readType5CcTransparent uid storageErr

/-! ### System information -/

/-- Where the memory size stands in a system information: behind the fields its flags announce. -/
def memorySizePos (raw : Frame) : Nat :=
  let pos := sysInfoPreambleLen + iso15693UidLen
  let pos := if u8At raw 1 &&& infoFlagDsfid ≠ 0 ∧ pos < raw.length then pos + 1 else pos
  if u8At raw 1 &&& infoFlagAfi ≠ 0 ∧ pos < raw.length then pos + 1 else pos

/-- `nfc_tag_type5_apply_system_info`, its memory size. -/
def applySystemInfo (info : Type5Info) (raw : Frame) : Type5Info :=
  let pos := memorySizePos raw
  if raw.length < sysInfoPreambleLen then { info with blockCount := 0, blockSize := 0 }
  else if u8At raw 1 &&& infoFlagMemorySize ≠ 0 ∧ pos + memorySizeFieldLen ≤ raw.length then
    { info with
      blockCount := (u8At raw pos).zeroExtend 16 + 1
      blockSize := (u8At raw (pos + 1) &&& blockSizeMask) + 1 }
  else { info with blockCount := 0, blockSize := 0 }

/-- `nfc_tag_type5_apply_system_info_ext`, its memory size. -/
def applySystemInfoExt (info : Type5Info) (raw : Frame) : Type5Info :=
  let pos := memorySizePos raw
  if raw.length < sysInfoExtMinReplyLen then { info with blockCount := 0, blockSize := 0 }
  else if u8At raw 1 &&& infoFlagMemorySize ≠ 0 ∧ pos + extMemorySizeFieldLen ≤ raw.length then
    { info with
      blockCount := BitVec.ofNat 16 (min ((bigEndian (u8At raw (pos + 1)) (u8At raw pos)).toNat + 1) 0xFFFF)
      blockSize := (u8At raw (pos + 2) &&& blockSizeMask) + 1 }
  else { info with blockCount := 0, blockSize := 0 }

/-- `nfc_tag_type5_cc_signals_mlen_overflow`. -/
def ccSignalsMlenOverflow (info : Type5Cc) : Bool :=
  info.ccValid && info.ccLen.toNat == t5tCcLenShort && u8At info.cc 2 == mlenOverflow &&
    u8At info.cc 3 &&& mlenOverflowCc3Flag != 0

/-- `nfc_tag_type5_resolve_mlen_overflow`. -/
def resolveMlenOverflow (info : Type5Info) : Type5Info :=
  let totalBytes := info.blockCount.toNat * info.blockSize.toNat
  if info.ccValid = false ∨ ccSignalsMlenOverflow info.toType5Cc = false then info
  else if info.blockCount = 0 ∨ info.blockSize = 0 then info
  else if totalBytes ≤ info.ccLen.toNat then info
  else { info with dataAreaSizeBytes := BitVec.ofNat 16 (min (totalBytes - info.ccLen.toNat) 0xFFFF) }

theorem applySystemInfo_cc (info : Type5Info) (raw : Frame) :
    (applySystemInfo info raw).toType5Cc = info.toType5Cc := by
  rw [applySystemInfo]
  split
  · rfl
  split <;> rfl

theorem applySystemInfoExt_cc (info : Type5Info) (raw : Frame) :
    (applySystemInfoExt info raw).toType5Cc = info.toType5Cc := by
  rw [applySystemInfoExt]
  split
  · rfl
  split <;> rfl

theorem resolveMlenOverflow_ccLen (info : Type5Info) : (resolveMlenOverflow info).ccLen = info.ccLen := by
  rw [resolveMlenOverflow]
  split
  · rfl
  split
  · rfl
  split <;> rfl

theorem resolveMlenOverflow_ccValid (info : Type5Info) : (resolveMlenOverflow info).ccValid = info.ccValid := by
  rw [resolveMlenOverflow]
  split
  · rfl
  split
  · rfl
  split <;> rfl

/-- `Type5SystemInfoResponseOk`. -/
def systemInfoResponseOk (minLen : Nat) (systemInfo : Frame) : Bool :=
  decide (minLen ≤ systemInfo.length) && u8At systemInfo 0 &&& iso15693RespFlagError == 0

/-- The memory size of an accepted system information. -/
def acceptSystemInfo (minLen rawMax : Nat) (apply : Type5Info → Frame → Type5Info) (info : Type5Info)
    (answer : Except String Frame) : Type5Info :=
  match answer with
  | .ok systemInfo => if systemInfoResponseOk minLen systemInfo then apply info (systemInfo.take rawMax) else info
  | .error _ => info

/-- `Type5ApplySystemInfo`, for the block count and the area size it leaves. -/
def type5ApplySystemInfo (uid : Frame) (info : Type5Info) : Exchange Type5Info :=
  if info.blockCount ≠ 0 then pure info
  else do
    let systemInfo ← tryGetDataBytes getDataType5SysInfo getDataP2Default
    let info ← (if systemInfoResponseOk sysInfoMinReplyLen systemInfo then
        pure (applySystemInfo info (systemInfo.take byteValueMax))
      else type5Addressed uid (type5AddressedCommand iso15693CmdGetSysInfo) >>= fun answer =>
        pure (acceptSystemInfo sysInfoMinReplyLen byteValueMax applySystemInfo info answer) : Exchange Type5Info)
    let info ← (if ccSignalsMlenOverflow info.toType5Cc then
        type5Addressed uid type5AddressedSystemInfoExtCommand >>= fun answer =>
          pure (acceptSystemInfo extSysInfoMinReplyLen sysInfoRawFieldMax applySystemInfoExt info answer)
      else pure info : Exchange Type5Info)
    return resolveMlenOverflow info

/-! ### The writer -/

/-- The blocks that the container takes. -/
def type5CcBlocks (info : Type5Info) (cc : Frame) : Nat := type5CcLenOrDefault info cc / storageType5BlockSize

/-- `Type5DataAreaBytes`. -/
def type5DataAreaBytes (info : Type5Info) (cc : Frame) : Nat :=
  let area := info.dataAreaSizeBytes.toNat
  if info.blockCount = 0 ∨ info.blockSize ≠ type5BlockSize then area
  else if info.blockCount.toNat ≤ type5CcBlocks info cc then area
  else
    let geom := (info.blockCount.toNat - type5CcBlocks info cc) * storageType5BlockSize
    if 0xFFFF < geom then area else if area < geom then geom else area

/-- `BuildStorageNdefTlv`. -/
def buildStorageNdefTlv (ndef : Frame) (dataAreaSize : Nat) : Except String Frame :=
  if ndefMaxTotalBytes < ndef.length then .error "NDEF payload exceeds host parse limit"
  else if 0xFFFF < ndef.length then .error "NDEF payload exceeds host storage TLV limit"
  else
    let built := buildMessageTlv ndef (List.replicate dataAreaSize 0)
    if built.ok = false then .error "NDEF payload exceeds tag data area" else .ok built.written

/-- `Type5WriteCc`. -/
def type5WriteCc (uid : Frame) (mlen : Byte) : Exchange (Except String Unit) :=
  type5WriteBlock uid 0 [forumCcMagic, t5tCcVerAccess, mlen, sw2Success]

/-- The MLEN that a message needs, as far as the blocks of the tag go. -/
def type5NeedMlen (info : Type5Info) (cc : Frame) (needUnits : Nat) : Nat :=
  let needMlen := max needUnits areaSizeUnitBytes
  if 0 < info.blockCount.toNat ∧ info.blockSize = type5BlockSize ∧ type5CcBlocks info cc < info.blockCount.toNat then
    min needMlen
      ((info.blockCount.toNat - type5CcBlocks info cc) * storageType5BlockSize / areaSizeUnitBytes % 256)
  else needMlen

/-- `Type5RefreshCcIfNeeded`. -/
def type5RefreshCcIfNeeded (uid : Frame) (info : Type5Info) (cc : Frame) (tlvLen : Nat) :
    Exchange (Except String Unit) :=
  let needUnits := (tlvLen + (areaSizeUnitBytes - 1)) / areaSizeUnitBytes
  if byteValueMax < needUnits then
    pure (.error "NDEF area exceeds 8-bit T5T CC MLEN; extended CC write unsupported")
  else if type5DeclaredCcLen cc = t5tCcLenExtended then pure (.ok ())
  else if type5NeedMlen info cc needUnits ≤
    (if t5tCcLenShort ≤ cc.length then (u8At cc 2).toNat else 0) then pure (.ok ())
  else type5WriteCc uid (BitVec.ofNat 8 (type5NeedMlen info cc needUnits))

/-- The write behind an enlarged container. -/
def type5WriteTlv (uid : Frame) (info : Type5Info) (cc tlvArea : Frame) : Exchange (Except String Unit) :=
  let ccLen := type5CcLenOrDefault info cc
  if ccLen = 0 ∨ ccLen % storageType5BlockSize ≠ 0 then
    pure (.error "invalid Type 5 CC length for block addressing")
  else if 0xFFFF < tlvArea.length then pure (.error "Type 5 TLV image exceeds host block range")
  else
    let startBlock := ccLen / storageType5BlockSize
    let blocks := u16 ((tlvArea.length + 3) / storageType5BlockSize)
    if blocks ≠ 0 ∧ 0x10000 < startBlock + blocks then pure (.error "Type 5 write crosses host block range")
    else storageWriteUnitsWithIo (type5StorageWriteUnit uid) (BitVec.ofNat 16 startBlock) type5BlockSize tlvArea

/-- What follows the reads: the space is checked, the container enlarged, the TLV written. -/
def type5WriteMessage (uid ndef cc : Frame) (info : Type5Info) : Exchange (Except String Unit) :=
  let dataArea := type5DataAreaBytes info cc
  let buildArea := if info.blockCount = 0 ∧ dataArea < 0xFFFF then 0xFFFF else dataArea
  match buildStorageNdefTlv ndef buildArea with
  | .error err => pure (.error err)
  | .ok tlvArea =>
      if info.blockCount ≠ 0 ∧ dataArea < tlvArea.length then pure (.error "NDEF payload exceeds tag data area")
      else
        type5RefreshCcIfNeeded uid info cc tlvArea.length >>= fun refreshed =>
          match refreshed with
          | .error err => pure (.error err)
          | .ok _ => type5WriteTlv uid info cc tlvArea

/-- `WriteType5StorageNdef`. -/
def writeType5StorageNdef (uid ndef : Frame) : Exchange (Except String Unit) :=
  readType5Cc uid [] >>= fun read =>
    match read with
    | .error err => pure (.error err)
    | .ok cc =>
        match parseType5Cc cc with
        | .error err => pure (.error err)
        | .ok info =>
            if info.writeAccessOpen = false then pure (.error "tag reports write access restricted")
            else type5ApplySystemInfo uid info >>= type5WriteMessage uid ndef cc

end NeroReader.HostStorage
