import NeroReader.Dialogue
import NeroReader.HostApdu
import NeroReader.HostStorage
import NeroReader.NdefRecord
import NeroReader.StorageUpdate

/-!
The block addresses of the storage commands for a Type 5 tag, in the host that builds them and in the firmware
that takes them apart. P1 and P2 are one byte offset, except that P1 `0xFF` puts a block number into P2. The host
tries the block number first where it fits, and then the byte offset; the offsets from `0xFF00` on read as block
numbers.
-/

namespace NeroReader

open Storage

/-! ### The host -/

namespace HostStorage

open HostApdu (responseSwOk)

def claProprietary : Byte := 0xFF
def insReadBinary : Byte := 0xB0
def insUpdateBinary : Byte := 0xD6
def sw1WrongLength : Byte := 0x6C
def sw1WrongLengthAlt : Byte := 0x67
def sw2Success : Byte := 0x00
def iso15693BlockAddr1ByteMax : Nat := 0xFF
def byteValueMax : Nat := 255

/-- A program that exchanges APDUs; PC/SC answers with a response or an error text. -/
abbrev Exchange := Dialogue Frame (Except String Frame)

/-- `PcscCard::Transmit`. -/
def transmit (capdu : Frame) : Exchange (Except String Frame) := .ask capdu .done

def readBinaryApdu (p1 p2 le : Byte) : Frame := [claProprietary, insReadBinary, p1, p2, le]

def updateBinaryApdu (p1 p2 : Byte) (bytes : Frame) : Frame :=
  [claProprietary, insUpdateBinary, p1, p2, BitVec.ofNat 8 bytes.length] ++ bytes

def swText (sw1 sw2 : Byte) : String :=
  "APDU SW=" ++ String.ofList ((hexByte sw1 ++ hexByte sw2).map fun ch => Char.ofNat ch.toNat)

def withoutStatus (rapdu : Frame) : Frame := if rapdu.length < 2 then [] else rapdu.take (rapdu.length - 2)

/-- The status word at the end of a response, if it is long enough. -/
def statusOf (rapdu : Frame) : Option (Byte × Byte) :=
  if rapdu.length < 2 then none else some (u8At rapdu (rapdu.length - 2), u8At rapdu (rapdu.length - 1))

def refusalText (rapdu : Frame) : String :=
  match statusOf rapdu with
  | none => "APDU response missing status word"
  | some (sw1, sw2) => swText sw1 sw2

/-- `TransmitOk`. -/
def transmitOk (capdu : Frame) : Exchange (Except String Frame) := do
  match ← transmit capdu with
  | .error err => return .error err
  | .ok rapdu => return if responseSwOk rapdu then .ok (withoutStatus rapdu) else .error (refusalText rapdu)

/-- `read_with_len`: one READ BINARY. A refusal leaves the status word that the next try is chosen by. -/
def readWithLen (p1 p2 le : Byte) (sw : Byte × Byte) : Exchange (Except (String × Byte × Byte) Frame) := do
  match ← transmit (readBinaryApdu p1 p2 le) with
  | .error err => return .error (err, sw)
  | .ok rapdu =>
      return if responseSwOk rapdu then .ok (withoutStatus rapdu)
        else .error (refusalText rapdu, (statusOf rapdu).getD (0, 0))

/-- Another READ BINARY behind a refusal whose status word asks for it. -/
def readAgain (p1 p2 : Byte) (asks : Byte × Byte → Option Byte) :
    Except (String × Byte × Byte) Frame → Exchange (Except (String × Byte × Byte) Frame)
  | .ok data => pure (.ok data)
  | .error (err, sw) =>
      match asks sw with
      | none => pure (.error (err, sw))
      | some le => readWithLen p1 p2 le sw

/-- `StorageReadBinaryApdu`. -/
def storageReadBinaryApdu (p1 p2 len : Byte) : Exchange (Except String Frame) := do
  let first ← readWithLen p1 p2 len (0, 0)
  let second ← readAgain p1 p2 (fun sw => if sw.1 = sw1WrongLength ∧ sw.2 ≠ len then some sw.2 else none) first
  let third ← readAgain p1 p2
    (fun sw => if sw.1 = sw1WrongLengthAlt ∧ sw.2 = sw2Success ∧ len ≠ sw2Success then some sw2Success else none) second
  return third.mapError Prod.fst

/-- `StorageUpdateBinaryApdu`. -/
def storageUpdateBinaryApdu (p1 p2 : Byte) (bytes : Frame) : Exchange (Except String Unit) := do
  if bytes.length = 0 ∨ byteValueMax < bytes.length then
    return .error "storage UPDATE BINARY chunk size is invalid"
  else return (← transmitOk (updateBinaryApdu p1 p2 bytes)).map fun _ => ()

def unitHigh (unit : Word) : Byte := (unit >>> 8).setWidth 8
def unitLow (unit : Word) : Byte := unit.setWidth 8

/-- `Type5BlockByteOffset`. -/
def type5BlockByteOffset (block : Word) : Option Word :=
  if 0xFFFF / type5BlockSize.toNat < block.toNat then none
  else some (BitVec.ofNat 16 (block.toNat * type5BlockSize.toNat))

/-- The text for a second try that failed as well. -/
def joinErrors (first joint second : String) : String :=
  if first ≠ "" ∧ first ≠ second then first ++ joint ++ second else second

/-- The two forms of an address: the block number in P2, and behind a failure of it the byte offset. -/
def byBlockThenOffset {α : Type} (block : Word) (rangeErr : String)
    (access : Byte → Byte → Exchange (Except String α)) :
    Exchange (Except String α) :=
  (if block.toNat ≤ iso15693BlockAddr1ByteMax then access claProprietary (unitLow block) else pure (.error "")) >>=
    fun first =>
      match first with
      | .ok data => return .ok data
      | .error blockAddressErr =>
          match type5BlockByteOffset block with
          | none => return .error rangeErr
          | some byteOffset => do
              let second ← access (unitHigh byteOffset) (unitLow byteOffset)
              return second.mapError (joinErrors blockAddressErr "; generic offset: ")

/-- `Type5StorageReadBinary`. -/
def type5StorageReadBinary (block : Word) (len : Byte) : Exchange (Except String Frame) :=
  byBlockThenOffset block "Type 5 block offset exceeds host READ BINARY range" fun p1 p2 =>
  storageReadBinaryApdu p1 p2 len

/-- `Type5StorageUpdateBinary`. -/
def type5StorageUpdateBinary (block : Word) (bytes : Frame) : Exchange (Except String Unit) :=
  byBlockThenOffset block "Type 5 block offset exceeds host UPDATE BINARY range" fun p1 p2 =>
    storageUpdateBinaryApdu p1 p2 bytes

end HostStorage

/-! ### The firmware -/

namespace Storage

/-- The block a READ BINARY names on a Type 5 tag. -/
def blockRead (apdu : Frame) : Option Word := (readBinaryFields .type5 apdu).map Prod.fst

/-- The block an UPDATE BINARY names on a Type 5 tag, and what it writes there. -/
def blockUpdated (apdu : Frame) : Option (Word × Frame) :=
  (apduUpdateBinary apdu).bind fun (parsedOffset, _, data) =>
    (updateBinaryOffset .type5 apdu parsedOffset).map fun block => (block, data)

end Storage

/-! ### Agreement -/

namespace HostStorage

open Dialogue

theorem bigEndian_unit (unit : Word) : bigEndian (unitHigh unit) (unitLow unit) = unit := by
  have hlt := unit.isLt
  apply BitVec.eq_of_toNat_eq
  rw [bigEndian_toNat, unitHigh, unitLow, BitVec.toNat_setWidth, BitVec.toNat_setWidth, BitVec.toNat_ushiftRight,
    Nat.shiftRight_eq_div_pow]
  omega

/-- The byte offset of a block stands apart from the block numbers in P2. -/
theorem unitHigh_offset {block offset : Word} (h : type5BlockByteOffset block = some offset)
    (hblock : block.toNat < 0x3FC0) : unitHigh offset ≠ 0xFF := by
  rw [type5BlockByteOffset] at h
  split at h
  · simp at h
  obtain rfl := Option.some.inj h
  intro hhigh
  have hnat := congrArg BitVec.toNat hhigh
  rw [unitHigh, BitVec.toNat_setWidth, BitVec.toNat_ushiftRight, Nat.shiftRight_eq_div_pow, BitVec.toNat_ofNat,
    show type5BlockSize.toNat = 4 by rfl, show (0xFF : Byte).toNat = 255 by rfl] at hnat
  omega

theorem offset_block {block offset : Word} (h : type5BlockByteOffset block = some offset) :
    offset.toNat % type5BlockSize.toNat = 0 ∧ BitVec.ofNat 16 (offset.toNat / type5BlockSize.toNat) = block := by
  rw [type5BlockByteOffset, show type5BlockSize.toNat = 4 by rfl] at h
  split at h
  · simp at h
  rename_i hrange
  obtain rfl := Option.some.inj h
  have hmod : block.toNat * 4 % 2 ^ 16 = block.toNat * 4 := by
    apply Nat.mod_eq_of_lt
    omega
  rw [show type5BlockSize.toNat = 4 by rfl, BitVec.toNat_ofNat, hmod, Nat.mul_mod_left,
    Nat.mul_div_cancel _ (by decide), BitVec.ofNat_toNat, BitVec.setWidth_eq]
  exact ⟨rfl, rfl⟩

/-! #### What is asked -/

section Asked

variable {allowed : Frame → Prop} {p1 p2 : Byte}

theorem readWithLen_asks (h : ∀ le, allowed (readBinaryApdu p1 p2 le)) (le : Byte) (sw : Byte × Byte) :
    (readWithLen p1 p2 le sw).Asks allowed := by
  refine asks_bind ⟨h le, fun _ => trivial⟩ fun answer => ?_
  cases answer <;> exact trivial

theorem readAgain_asks (h : ∀ le, allowed (readBinaryApdu p1 p2 le)) (asks : Byte × Byte → Option Byte)
    (before : Except (String × Byte × Byte) Frame) : (readAgain p1 p2 asks before).Asks allowed := by
  rcases before with ⟨err, sw⟩ | data
  · rw [readAgain]
    split
    · exact asks_pure _
    · exact readWithLen_asks h _ _
  · exact asks_pure _

theorem storageReadBinaryApdu_asks (h : ∀ le, allowed (readBinaryApdu p1 p2 le)) (len : Byte) :
    (storageReadBinaryApdu p1 p2 len).Asks allowed := by
  refine asks_bind (readWithLen_asks h _ _) fun first => ?_
  refine asks_bind (readAgain_asks h _ _) fun second => ?_
  exact asks_bind (readAgain_asks h _ _) fun third => asks_pure _

theorem storageUpdateBinaryApdu_asks {bytes : Frame}
    (h : 0 < bytes.length → bytes.length ≤ byteValueMax →
      allowed (updateBinaryApdu p1 p2 bytes)) :
    (storageUpdateBinaryApdu p1 p2 bytes).Asks allowed := by
  rw [storageUpdateBinaryApdu]
  split
  · exact asks_pure _
  · rename_i hlen
    have hsent := h (by omega) (by omega)
    refine asks_bind (asks_bind ⟨hsent, fun _ => trivial⟩ fun answer => ?_) fun _ => asks_pure _
    cases answer <;> exact asks_pure _

theorem byBlockThenOffset_asks {α : Type} {block : Word} {rangeErr : String}
    {access : Byte → Byte → Exchange (Except String α)}
    (hblock : block.toNat ≤ iso15693BlockAddr1ByteMax → (access claProprietary (unitLow block)).Asks allowed)
    (hoffset : ∀ offset, type5BlockByteOffset block = some offset →
      (access (unitHigh offset) (unitLow offset)).Asks allowed) :
    (byBlockThenOffset block rangeErr access).Asks allowed := by
  refine asks_bind ?_ fun first => ?_
  · split
    · rename_i hle
      exact hblock hle
    · exact asks_pure _
  cases first with
  | ok data => exact asks_pure _
  | error err =>
      dsimp only
      split
      · exact asks_pure _
      · rename_i offset hform
        exact asks_bind (hoffset offset hform) fun second => asks_pure _

end Asked

/-! #### What is understood -/

theorem zeroExtend_unitLow {block : Word} (h : block.toNat ≤ iso15693BlockAddr1ByteMax) :
    (unitLow block).zeroExtend 16 = block := by
  rw [iso15693BlockAddr1ByteMax] at h
  apply BitVec.eq_of_toNat_eq
  rw [unitLow, BitVec.toNat_setWidth, BitVec.toNat_setWidth]
  omega

theorem blockRead_byBlock {block : Word} (h : block.toNat ≤ iso15693BlockAddr1ByteMax) (le : Byte) :
    blockRead (readBinaryApdu claProprietary (unitLow block) le) = some block := by
  have hfields : readBinaryFields .type5 (readBinaryApdu claProprietary (unitLow block) le) =
      some ((unitLow block).zeroExtend 16, le) := rfl
  rw [blockRead, hfields, zeroExtend_unitLow h]
  rfl

theorem blockRead_byOffset {block offset : Word} (h : type5BlockByteOffset block = some offset)
    (hblock : block.toNat < 0x3FC0) (le : Byte) :
    blockRead (readBinaryApdu (unitHigh offset) (unitLow offset) le) = some block := by
  obtain ⟨hmod, hdiv⟩ := offset_block h
  have hapdu : apduReadBinary (readBinaryApdu (unitHigh offset) (unitLow offset) le) =
      some (offset, le) := congrArg (fun word => some (word, le)) (bigEndian_unit offset)
  have hmarker : ¬ (TagKind.type5 = .type5 ∧
      u8At (readBinaryApdu (unitHigh offset) (unitLow offset) le) 2 = 0xFF) :=
    fun hhigh => unitHigh_offset h hblock hhigh.2
  rw [blockRead, readBinaryFields, hapdu]
  dsimp only
  rw [if_neg hmarker, if_pos rfl, if_neg (fun hne => hne hmod), hdiv]
  rfl

theorem length_updateBinaryApdu (p1 p2 : Byte) (bytes : Frame) :
    (updateBinaryApdu p1 p2 bytes).length = 5 + bytes.length := by
  rw [updateBinaryApdu, List.length_append]
  rfl

section Updates

variable {bytes : Frame}

theorem apduUpdateBinary_sent (p1 p2 : Byte) (hpos : 0 < bytes.length) (hmax : bytes.length ≤ byteValueMax) :
    apduUpdateBinary (updateBinaryApdu p1 p2 bytes) = some (bigEndian p1 p2, BitVec.ofNat 8 bytes.length, bytes) := by
  rw [byteValueMax] at hmax
  have hlc : (BitVec.ofNat 8 bytes.length : Byte).toNat = bytes.length := by
    rw [BitVec.toNat_ofNat]
    omega
  have hne : (BitVec.ofNat 8 bytes.length : Byte) ≠ 0 := by
    intro hzero
    rw [hzero] at hlc
    exact Nat.ne_of_lt hpos hlc
  have hlen := length_updateBinaryApdu p1 p2 bytes
  have hbyte : u8At (updateBinaryApdu p1 p2 bytes) 4 = BitVec.ofNat 8 bytes.length := rfl
  rw [apduUpdateBinary, if_neg (by omega), hbyte, hlc, hlen, if_neg (not_or.mpr ⟨not_not.mpr rfl, hne⟩)]
  rfl

theorem blockUpdated_sent {p1 p2 : Byte} {block : Word} (hpos : 0 < bytes.length) (hmax : bytes.length ≤ byteValueMax)
    (hoffset : updateBinaryOffset .type5 (updateBinaryApdu p1 p2 bytes) (bigEndian p1 p2) = some block) :
    blockUpdated (updateBinaryApdu p1 p2 bytes) = some (block, bytes) := by
  rw [blockUpdated, apduUpdateBinary_sent p1 p2 hpos hmax, Option.bind_some]
  dsimp only
  rw [hoffset, Option.map_some]

theorem blockUpdated_byBlock {block : Word} (h : block.toNat ≤ iso15693BlockAddr1ByteMax) (hpos : 0 < bytes.length)
    (hmax : bytes.length ≤ byteValueMax) :
    blockUpdated (updateBinaryApdu claProprietary (unitLow block) bytes) = some (block, bytes) := by
  have hlen := length_updateBinaryApdu claProprietary (unitLow block) bytes
  apply blockUpdated_sent hpos hmax
  rw [updateBinaryOffset, if_neg (by decide), if_neg (by omega), if_pos ⟨rfl, by omega⟩]
  exact congrArg some (zeroExtend_unitLow h)

theorem blockUpdated_byOffset {block offset : Word} (h : type5BlockByteOffset block = some offset)
    (hblock : block.toNat < 0x3FC0) (hpos : 0 < bytes.length) (hmax : bytes.length ≤ byteValueMax) :
    blockUpdated (updateBinaryApdu (unitHigh offset) (unitLow offset) bytes) = some (block, bytes) := by
  obtain ⟨hmod, hdiv⟩ := offset_block h
  have hlen := length_updateBinaryApdu (unitHigh offset) (unitLow offset) bytes
  apply blockUpdated_sent hpos hmax
  rw [bigEndian_unit, updateBinaryOffset, if_neg (by decide), if_neg (by omega),
    if_neg (fun hhigh => unitHigh_offset h hblock hhigh.1), if_neg (fun hne => hne hmod), hdiv]

end Updates

/-- **Host and firmware agree** about a block: whatever the host asks for when it reads or writes this block, the
firmware understands as this block, and a write as these bytes. -/
def BlockAgrees (block : Word) : Prop :=
  (∀ len, (type5StorageReadBinary block len).Asks fun apdu => blockRead apdu = some block) ∧
    ∀ bytes, (type5StorageUpdateBinary block bytes).Asks fun apdu => blockUpdated apdu = some (block, bytes)

/-- From block `0x3FC0` on the byte offset reads as a block number. -/
theorem high_block_misread {block : Word} (hlow : 0x3FC0 ≤ block.toNat) (hhigh : block.toNat ≤ 0x3FFF) :
    ¬ BlockAgrees block := by
  intro h
  have hoffset : type5BlockByteOffset block = some (BitVec.ofNat 16 (block.toNat * 4)) :=
    if_neg (show ¬ 0xFFFF / 4 < block.toNat by omega)
  have hmisread : unitHigh (BitVec.ofNat 16 (block.toNat * 4)) = 0xFF := by
    apply BitVec.eq_of_toNat_eq
    rw [unitHigh, BitVec.toNat_setWidth, BitVec.toNat_ushiftRight, Nat.shiftRight_eq_div_pow, BitVec.toNat_ofNat,
      show (0xFF : Byte).toNat = 255 by rfl]
    omega
  have hread := h.1 4
  rw [type5StorageReadBinary, byBlockThenOffset, if_neg (by rw [iso15693BlockAddr1ByteMax]; omega)] at hread
  simp only [hoffset, hmisread] at hread
  have hfirst : some ((unitLow (BitVec.ofNat 16 (block.toNat * 4))).zeroExtend 16) = some block := hread.1
  have hlow := congrArg BitVec.toNat (Option.some.inj hfirst)
  rw [BitVec.toNat_setWidth] at hlow
  have hlt := (unitLow (BitVec.ofNat 16 (block.toNat * 4))).isLt
  omega

/-- **Which block numbers agree.** All that the host accepts, up to the ones whose byte offset begins with the marker
of a block number. -/
theorem type5_block_agrees_iff (block : Word) : BlockAgrees block ↔ block.toNat < 0x3FC0 ∨ 0x3FFF < block.toNat := by
  constructor
  · intro h
    by_contra hzone
    exact high_block_misread (by omega) (by omega) h
  intro hblock
  have hoffset : ∀ {offset}, type5BlockByteOffset block = some offset → block.toNat < 0x3FC0 := by
    intro offset hform
    rw [type5BlockByteOffset, show type5BlockSize.toNat = 4 by rfl] at hform
    split at hform
    · simp at hform
    · omega
  constructor
  · intro len
    refine byBlockThenOffset_asks (fun hle => ?_) fun offset hform => ?_
    · exact storageReadBinaryApdu_asks (blockRead_byBlock hle) len
    · exact storageReadBinaryApdu_asks (blockRead_byOffset hform (hoffset hform)) len
  · intro bytes
    refine byBlockThenOffset_asks (fun hle => ?_) fun offset hform => ?_
    · exact storageUpdateBinaryApdu_asks (blockUpdated_byBlock hle)
    · exact storageUpdateBinaryApdu_asks (blockUpdated_byOffset hform (hoffset hform))

/-- Block 16320 is asked for at byte offset `0xFF00`, which the firmware reads as block 0. -/
theorem block_16320_misread : ¬ BlockAgrees 0x3FC0 :=
  high_block_misread (by decide) (by decide)

end HostStorage

end NeroReader
