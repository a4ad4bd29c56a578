import NeroReader.TagReading

/-!
The host's reading of a storage tag through a PC/SC reader. READ BINARY brings the data area unit by unit
or a few units at a time, and after every read the host looks into what it has: for a message, or for a
reason to call the tag empty. A search that runs out of bytes together with a byte `0xFE` anywhere counts
as such a reason.
-/

namespace NeroReader.HostStorage

open Ndef Storage Tags

def type2StorageNdefScanMax : Nat := 912
def type5StorageReadMax : Nat := 65535
def storageType5BlockSize : Nat := 4
def blockCeilBias : Nat := 3

/-- What a read of the tag comes to. -/
inductive Result where
  | message (ndef : Frame)
  | empty
  | failed (err : String)
  deriving DecidableEq, Repr

def tlvStatusName : TlvStatus → String
  | .ok => "ok"
  | .notFound => "not found"
  | .truncated => "truncated"
  | .invalidArg => "invalid argument"
  | .tooLarge => "too large"

/-- `TlvAreaHasTerminator`. -/
def tlvAreaHasTerminator (raw : Frame) (startOffset : Nat) : Bool :=
  if raw.length ≤ startOffset then false else decide (tlvTerminator ∈ raw.drop startOffset)

/-- `scan_raw`: a verdict on the bytes so far, or none. -/
def scanRaw (raw : Frame) (startOffset totalLen : Nat) : Option Result :=
  if raw.length ≤ startOffset then none
  else
    let found := findMessageTlv raw startOffset
    match found.1 with
    | .ok => some (.message (found.2.value raw))
    | .notFound => if tlvAreaHasTerminator raw startOffset || decide (totalLen ≤ raw.length) then some .empty else none
    | .truncated => none
    | status => some (.failed ("NDEF TLV " ++ tlvStatusName status))

/-! ### Type 2 -/

/-- The answers to READ BINARY: the first unit and the length asked for. -/
structure StorageCard where
  readBinary : Nat → Nat → Except String Frame

/-- `nfc_storage_ceil_units_u16`, on numbers. -/
def ceilUnitsU16 (byteLen unitSize : Nat) : Option Nat :=
  (ceilUnits (BitVec.ofNat 16 byteLen) (BitVec.ofNat 8 unitSize)).map (·.toNat)

/-- `nfc_storage_type2_read_unit_limit`. -/
def type2ReadUnitLimit (firstUnit unitSize tlvStartOffset dataAreaSize scanMax : Nat) : Nat :=
  let scanBytes := min dataAreaSize scanMax
  if unitSize = 0 then 0
  else if 0xFFFF < tlvStartOffset + scanBytes then 0
  else
    match ceilUnitsU16 (tlvStartOffset + scanBytes) unitSize with
    | none => 0
    | some units =>
        if firstUnit ≤ type2StorageMaxPage then min units (type2StorageMaxPage - firstUnit + 1) else units

/-- The units that `ReadStorageNdefTlv` is ready to read. -/
def type2Units (firstUnit unitSize tlvStartOffset dataAreaSize : Nat) : Nat :=
  let units := (tlvStartOffset + dataAreaSize + unitSize - 1) / unitSize
  if firstUnit = type2CcPage ∧ unitSize = type2UnitSize.toNat then
    let capped := type2ReadUnitLimit firstUnit unitSize tlvStartOffset dataAreaSize type2StorageNdefScanMax
    if capped ≠ 0 ∧ capped < units then capped else units
  else units

/-- The read loop of `ReadStorageNdefTlv`. -/
def readStorageFrom (card : StorageCard) (firstUnit unitSize tlvStartOffset totalLen units : Nat) :
    Nat → Nat → Frame → Result
  | 0, _, _ => .failed "NDEF TLV truncated"
  | fuel + 1, unitIndex, raw =>
      if unitIndex < units then
        let type2Storage := decide (firstUnit = type2CcPage) && decide (unitSize = type2UnitSize.toNat)
        let want := min (if type2Storage then t2tReadRespBytes else unitSize) (totalLen - raw.length)
        match card.readBinary (firstUnit + unitIndex) want with
        | .error err => .failed err
        | .ok chunk =>
            let copied := min chunk.length want
            if copied = 0 ∨ (type2Storage = false ∧ copied < want) then
              .failed "short storage READ BINARY response"
            else
              match ceilUnitsU16 copied unitSize with
              | none | some 0 => .failed "invalid storage READ BINARY response geometry"
              | some unitsRead =>
                  match scanRaw (raw ++ chunk.take copied) tlvStartOffset totalLen with
                  | some result => result
                  | none =>
                      readStorageFrom card firstUnit unitSize tlvStartOffset totalLen units fuel (unitIndex + unitsRead)
                        (raw ++ chunk.take copied)
      else .failed "NDEF TLV truncated"

/-- `ReadStorageNdefTlv`. -/
def readStorageNdefTlv (card : StorageCard) (firstUnit unitSize tlvStartOffset dataAreaSize : Nat)
    (initialRaw : Frame) : Result :=
  if 0xFFFF < tlvStartOffset + dataAreaSize then .failed "storage TLV area exceeds host address range"
  else
    let totalLen := tlvStartOffset + dataAreaSize
    let units := type2Units firstUnit unitSize tlvStartOffset dataAreaSize
    let raw := initialRaw.take totalLen
    match if raw.length = 0 then some 0 else ceilUnitsU16 raw.length unitSize with
    | none => .failed "invalid seeded storage READ BINARY geometry"
    | some unitIndex =>
        match scanRaw raw tlvStartOffset totalLen with
        | some result => result
        | none => readStorageFrom card firstUnit unitSize tlvStartOffset totalLen units units unitIndex raw

/-- `ReadType2StorageNdef`, with the container read from the card. -/
def readType2StorageNdef (card : StorageCard) : Result :=
  match card.readBinary type2CcPage type2UnitSize.toNat with
  | .error err => .failed err
  | .ok cc =>
      if cc.length < t2tPageSizeBytes then .failed "short Type 2 CC READ BINARY response"
      else
        let cc := cc.take t2tPageSizeBytes
        let info := type2ApplyCc cc
        if info.ccValid = false ∨ info.dataAreaSizeBytes = 0 then .failed "invalid Type 2 capability container"
        else if info.readAccessOpen = false then .failed "tag reports read access restricted"
        else
          readStorageNdefTlv card type2CcPage type2UnitSize.toNat type2FirstDataPage info.dataAreaSizeBytes.toNat cc

/-! ### Type 5 -/

/-- `nfc_storage_type5_read_block_limit`. -/
def type5ReadBlockLimit (tlvStartOffset dataAreaSize readMax : Nat) : Nat :=
  if readMax ≤ tlvStartOffset then 0
  else
    let scanData := min dataAreaSize (readMax - tlvStartOffset)
    if 0xFFFF < tlvStartOffset + scanData then 0
    else (tlvStartOffset + scanData + blockCeilBias) / storageType5BlockSize

/-- The loop of `ReadType5NdefTlv`, on the answers to `Type5ReadBlock`. -/
def readType5From (readBlock : Nat → Except String Frame) (tlvStartOffset totalLen blocks : Nat) :
    Nat → Nat → Frame → Result
  | 0, _, _ => .failed "NDEF TLV truncated"
  | fuel + 1, block, raw =>
      if block < blocks then
        match readBlock block with
        | .error err => .failed err
        | .ok blockData =>
            let raw := raw ++ blockData.take (min blockData.length (totalLen - raw.length))
            match scanRaw raw tlvStartOffset totalLen with
            | some result => result
            | none => readType5From readBlock tlvStartOffset totalLen blocks fuel (block + 1) raw
      else .failed "NDEF TLV truncated"

/-- `ReadType5NdefTlv`. The total length is a 16-bit number. -/
def readType5NdefTlv (readBlock : Nat → Except String Frame) (tlvStartOffset dataAreaSize : Nat) : Result :=
  if 0xFFFF < tlvStartOffset + dataAreaSize then .failed "Type 5 TLV area exceeds host address range"
  else
    let blocks := type5ReadBlockLimit tlvStartOffset dataAreaSize type5StorageReadMax
    if blocks = 0 then .failed "Type 5 TLV area exceeds host read range"
    else
      readType5From readBlock tlvStartOffset (u16 (blocks * storageType5BlockSize)) blocks blocks 0 []

end NeroReader.HostStorage
