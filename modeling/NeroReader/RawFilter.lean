import NeroReader.Looked
import NeroReader.StorageNdef

/-!
The raw passthrough filters `reader_ccid_type2_raw_transceive_allowed` and
`reader_ccid_type5_raw_transceive_allowed`. The host's bytes are a buffer in memory: the bounded
loads of the source stop at its length, the plain ones do not.
-/

namespace NeroReader.Storage

/-! ### Opcodes -/

def rawT2Read : Byte := 0x30
def rawT2FastRead : Byte := 0x3A
def rawT2ReadSig : Byte := 0x3C
def rawT2GetVersion : Byte := 0x60

def rawT5Inventory : Byte := 0x01
def rawT5ReadSingle : Byte := 0x20
def rawT5ReadMultiple : Byte := 0x23
def rawT5GetSysInfo : Byte := 0x2B
def rawT5GetMultipleBlockSecurityStatus : Byte := 0x2C
def rawT5ExtReadSingle : Byte := 0x30
def rawT5ExtReadMultiple : Byte := 0x33
def rawT5ExtGetSysInfo : Byte := 0x3B
def rawT5ExtGetMultipleBlockSecurityStatus : Byte := 0x3C
def addressFlag : Byte := 0x20
def readMultipleBlocksMax : Nat := 31

namespace Tag

variable (tag : Tag)

/-! ### Type 2 -/

/-- The Type 2 description, when its container is valid and grants read access. -/
def readableType2 : Option Type2Info :=
  match tag.type2 with
  | none => none
  | some type2 => if type2.ccValid && type2.readAccessOpen then some type2 else none

/-- FAST_READ loads both page bytes before it looks at the length. -/
def type2RawTransceiveAllowed (tx : Buffer Byte) : Looked Bool :=
  if tx.len = 0 ∨ tag.kind ≠ .type2 then pure false
  else do
    let op ← tx.loadAt 0 0
    if op = rawT2Read then
      if tx.len ≠ 2 then pure false
      else
        match tag.readableType2 with
        | none => pure false
        | some type2 => do
            let page ← tx.load 1
            pure (type2.readSpanOk (page.zeroExtend 16) 16)
    else if op = rawT2FastRead then do
      let firstPage ← tx.load 1
      let lastPage ← tx.load 2
      if tx.len ≠ 3 ∨ lastPage.toNat < firstPage.toNat then pure false
      else
        match tag.readableType2 with
        | none => pure false
        | some type2 =>
            let pageCount : Word := lastPage.zeroExtend 16 - firstPage.zeroExtend 16 + 1
            pure (type2.readSpanOk (firstPage.zeroExtend 16) (pageCount * 4))
    else if op = rawT2GetVersion then pure (decide (tx.len = 1))
    else if op = rawT2ReadSig then pure (decide (tx.len = 2))
    else pure false

/-! ### Type 5 -/

/-- The active tag's UID as it stands in an addressed command. -/
def uidLsb : Frame := tag.uid15.toList.reverse

/-- Byte by byte, up to the first difference. -/
def uidLsbMatches (tx : Buffer Byte) : Nat → Frame → Looked Bool
  | _, [] => pure true
  | off, expected :: rest => do
      let byte ← tx.load off
      if byte ≠ expected then pure false else uidLsbMatches tx (off + 1) rest

def addressedUidAllowed (tx : Buffer Byte) (uidOffset : Nat) : Looked Bool :=
  if uidOffset + 8 ≤ tx.len then uidLsbMatches tx uidOffset tag.uidLsb else pure false

def fixedCommandAllowed (tx : Buffer Byte) (baseLen : Nat) : Looked Bool :=
  if tx.len < baseLen then pure false
  else do
    let flags ← tx.loadAt 0 0
    if flags &&& addressFlag ≠ 0 then
      if tx.len = baseLen + 8 then tag.addressedUidAllowed tx baseLen else pure false
    else pure (decide (tx.len = baseLen))

def blockPayloadOffset (tx : Buffer Byte) : Looked (Option Nat) :=
  if tx.len < 2 then pure none
  else do
    let flags ← tx.loadAt 0 0
    if flags &&& addressFlag ≠ 0 then do
      let named ← tag.addressedUidAllowed tx 2
      pure (if named then some 10 else none)
    else pure (some 2)

def rawReadSpanAllowed (block byteLen : Word) : Bool :=
  match tag.type5 with
  | none => false
  | some type5 => byteLen != 0 && type5.ccValid && type5.readAccessOpen && type5.readSpanOk block byteLen

/-- First block and block count of a block field. -/
def blockField (extended multiple : Bool) (field : Frame) : Option (Word × Word) :=
  let block : Word :=
    if extended then bigEndian (u8At field 1) (u8At field 0) else (u8At field 0).zeroExtend 16
  if multiple = false then some (block, 1)
  else if extended then
    let countField := bigEndian (u8At field 3) (u8At field 2)
    if countField = 0xFFFF then none else some (block, countField + 1)
  else some (block, (u8At field 1).zeroExtend 16 + 1)

def blockFieldAllowed (extended multiple : Bool) (field : Frame) : Bool :=
  match blockField extended multiple field with
  | none => false
  | some (block, count) =>
      if multiple = true ∧ readMultipleBlocksMax < count.toNat then false
      else if 0xFFFF / 4 < count.toNat then false
      else tag.rawReadSpanAllowed block (count * 4)

def blockFieldLen (extended multiple : Bool) : Nat :=
  if extended then (if multiple then 4 else 2) else if multiple then 2 else 1

def readCommandAllowed (tx : Buffer Byte) (extended multiple : Bool) : Looked Bool := do
  let offset ← tag.blockPayloadOffset tx
  match offset with
  | none => pure false
  | some offset =>
      if tx.len ≠ offset + blockFieldLen extended multiple then pure false
      else do
        let field ← tx.copy offset (blockFieldLen extended multiple)
        pure (tag.blockFieldAllowed extended multiple field)

/-- The length check of INVENTORY is the one the function starts with. -/
def type5RawTransceiveAllowed (tx : Buffer Byte) : Looked Bool :=
  if tx.len < 2 ∨ tag.kind ≠ .type5 then pure false
  else do
    let op ← tx.loadAt 0 1
    if op = rawT5Inventory then pure (decide (2 ≤ tx.len))
    else if op = rawT5ReadSingle then tag.readCommandAllowed tx false false
    else if op = rawT5ReadMultiple ∨ op = rawT5GetMultipleBlockSecurityStatus then
      tag.readCommandAllowed tx false true
    else if op = rawT5ExtReadSingle then tag.readCommandAllowed tx true false
    else if op = rawT5ExtReadMultiple ∨ op = rawT5ExtGetMultipleBlockSecurityStatus then
      tag.readCommandAllowed tx true true
    else if op = rawT5GetSysInfo then tag.fixedCommandAllowed tx 2
    else if op = rawT5ExtGetSysInfo then tag.fixedCommandAllowed tx 3
    else pure false

end Tag

end NeroReader.Storage
