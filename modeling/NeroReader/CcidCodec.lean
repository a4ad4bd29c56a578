import Mathlib.Data.List.TakeDrop
import NeroReader.HostApdu
import NeroReader.StorageNdef

/-!
USB CCID bulk messages: the checks the reader makes on a command frame and the encoders of its
responses. An encoder fills the head of the zeroed work buffer, and the number of bytes handed to the
transport is chosen beside it, so a response keeps the two apart.
-/

namespace NeroReader.Ccid

open IsoDep
open Storage (Word TagKind)

/-! ### Constants -/

def bulkHeaderLen : Nat := 10
def maxXfrPayload : Nat := 2050
def rspDataCap : Nat := 510
def extendedRspBufSize : Nat := 2050
def workBufSize : Nat := 2060
def t0ParamsLen : Nat := 5
def t1ParamsLen : Nat := 7
def dataRateClockPayloadLen : Nat := 8
def defaultClockKhz : Nat := 13560
def defaultDataRateBps : Nat := 106000
def timeExtensionBwtMultiplier : Byte := 0x0A
def powerSelectMax : Nat := 3

def rspDataBlock : Byte := 0x80
def rspSlotStatus : Byte := 0x81
def rspParameters : Byte := 0x82
def rspEscape : Byte := 0x83
def rspDataRateAndClock : Byte := 0x84

def iccActive : Byte := 0x00
def iccInactive : Byte := 0x01
def iccNoIcc : Byte := 0x02
def iccCmdFail : Byte := 0x40
def iccCmdTimeExtension : Byte := 0x80

def xfrLevelSingle : Byte := 0x00
def xfrLevelChainBegin : Byte := 0x01
def xfrLevelChainEnd : Byte := 0x02
def xfrLevelChainMiddle : Byte := 0x03
def xfrResponseContinue : Byte := 0x10

def errCmdAborted : Byte := 0xFF
def errIccMute : Byte := 0xFE
def errBadDwLength : Byte := 0x01
def errSlotDoesNotExist : Byte := 0x05
def errPowerSelectUnsupported : Byte := 0x07
def errBadLevelParameter : Byte := 0x08
def errParamsProtocolType : Byte := 0x09

def protocolNumT1 : Byte := 0x01

/-! ### Commands -/

/-- The bulk OUT message types of the handler's switch. -/
inductive Command where
  | setParams
  | iccOn
  | iccOff
  | slotStatus
  | secure
  | t0Apdu
  | escape
  | getParams
  | resetParams
  | iccClock
  | xfr
  | mechanical
  | abort
  | setRateClock
  | other
  deriving DecidableEq, Repr

def Command.ofByte (b : Byte) : Command :=
  if b = 0x61 then .setParams
  else if b = 0x62 then .iccOn
  else if b = 0x63 then .iccOff
  else if b = 0x65 then .slotStatus
  else if b = 0x69 then .secure
  else if b = 0x6A then .t0Apdu
  else if b = 0x6B then .escape
  else if b = 0x6C then .getParams
  else if b = 0x6D then .resetParams
  else if b = 0x6E then .iccClock
  else if b = 0x6F then .xfr
  else if b = 0x71 then .mechanical
  else if b = 0x72 then .abort
  else if b = 0x73 then .setRateClock
  else .other

def commandOf (frame : Frame) : Command := .ofByte (u8At frame 0)
def slotOf (frame : Frame) : Byte := u8At frame 5
def seqOf (frame : Frame) : Byte := u8At frame 6

/-- The message type of the response that belongs to a command. -/
def responseMsgForBulkCommand : Command → Byte
  | .iccOn | .xfr | .secure => rspDataBlock
  | .getParams | .resetParams | .setParams => rspParameters
  | .escape => rspEscape
  | .setRateClock => rspDataRateAndClock
  | _ => rspSlotStatus

def bulkCommandRequiresZeroLength : Command → Bool
  | .slotStatus | .iccOn | .iccOff | .getParams | .resetParams | .abort | .iccClock | .t0Apdu
  | .mechanical => true
  | _ => false

def bulkCommandRequiresRfuZero : Command → Bool
  | .slotStatus | .iccOff | .getParams | .resetParams | .abort => true
  | _ => false

/-! ### Reading a frame -/

def u32LoadLe (buf : Frame) (off : Nat) : Nat :=
  (u8At buf off).toNat + 256 * (u8At buf (off + 1)).toNat + 65536 * (u8At buf (off + 2)).toNat +
    16777216 * (u8At buf (off + 3)).toNat

def u32StoreLe (value : Nat) : Frame :=
  [BitVec.ofNat 8 value, BitVec.ofNat 8 (value / 256), BitVec.ofNat 8 (value / 65536),
    BitVec.ofNat 8 (value / 16777216)]

/-- The length field of a CCID header. -/
def dwLength (frame : Frame) : Nat := u32LoadLe frame 1

/-- The payload length of a frame whose length field is within the transfer limit and counts the
bytes behind the header. -/
def bulkFrameValidate (frame : Frame) : Option Nat :=
  if frame.length < bulkHeaderLen then none
  else if maxXfrPayload < dwLength frame then none
  else if bulkHeaderLen + dwLength frame ≠ frame.length then none
  else some (dwLength frame)

def payloadOf (frame : Frame) : Frame := frame.drop bulkHeaderLen

def xfrLevelParameter (frame : Frame) : Word := Storage.bigEndian (u8At frame 9) (u8At frame 8)

def xfrLevelError (levelParam : Word) (dataLen : Nat) : Byte :=
  if levelParam = xfrResponseContinue.setWidth 16 then if dataLen = 0 then 0 else errBadDwLength
  else if levelParam = xfrLevelSingle.setWidth 16 ∨ levelParam = xfrLevelChainBegin.setWidth 16 ∨
      levelParam = xfrLevelChainMiddle.setWidth 16 ∨ levelParam = xfrLevelChainEnd.setWidth 16 then 0
  else errBadLevelParameter

/-- An XfrBlock that asks for the next part of a chained response. -/
def xfrFrameRequestsResponseContinuation (frame : Frame) : Bool :=
  match bulkFrameValidate frame with
  | none => false
  | some dataLen =>
      commandOf frame == .xfr && dataLen == 0 && u8At frame 8 == xfrResponseContinue && u8At frame 9 == 0

def powerSelectError (powerSelect : Byte) : Byte :=
  if powerSelect.toNat ≤ powerSelectMax then 0 else errPowerSelectUnsupported

/-- The offset of the first bad field of a SetParameters command, 0 when there is none. -/
def paramErrorForRequest (frame : Frame) : Byte :=
  if commandOf frame = .setParams then
    if dwLength frame ≠ t1ParamsLen then 0x01
    else if u8At frame 7 ≠ protocolNumT1 then 0x07
    else if u8At frame 8 ≠ 0 then 0x08
    else if u8At frame 9 ≠ 0 then 0x09
    else 0
  else 0

def paramIccLevel (frame : Frame) (currentStatus : Byte) : Byte :=
  if paramErrorForRequest frame ≠ 0 then iccCmdFail ||| currentStatus else currentStatus

/-! ### Responses -/

/-- What is handed to the transport: the start of the zeroed work buffer and a byte count. -/
structure Response where
  work : Frame
  len : Nat
  deriving DecidableEq, Repr

/-- The bytes that go out on the bulk IN endpoint. -/
def Response.frame (r : Response) : Frame := r.work.takeD r.len 0

def encodeHeader (msg : Byte) (dataBytes : Nat) (seq level param2 param3 : Byte) : Frame :=
  msg :: u32StoreLe dataBytes ++ [0, seq, level, param2, param3]

def encodeSlotStatus (msg seq level err : Byte) : Frame := encodeHeader msg 0 seq level err 0

def encodeDataBlockHeader (msg seq : Byte) (dataBytes : Nat) (level chain : Byte) : Frame :=
  encodeHeader msg dataBytes seq level 0 chain

def replySlotStat (seq level err : Byte) : Response :=
  ⟨encodeSlotStatus rspSlotStatus seq level err, bulkHeaderLen⟩

def replyDataBlockError (seq level err : Byte) : Response :=
  ⟨encodeSlotStatus rspDataBlock seq level err, bulkHeaderLen⟩

def replyDataPreface (seq : Byte) (dataBytes : Nat) (chain : Byte) : Frame :=
  encodeDataBlockHeader rspDataBlock seq dataBytes iccActive chain

/-- A data block with its data behind the preface. -/
def replyData (seq chain : Byte) (data : Frame) : Response :=
  ⟨replyDataPreface seq data.length chain ++ data, bulkHeaderLen + data.length⟩

def replyDataTimeExtension (seq : Byte) : Response :=
  ⟨(encodeDataBlockHeader rspDataBlock seq 0 (iccCmdTimeExtension ||| iccActive) 0).set 8
    timeExtensionBwtMultiplier, bulkHeaderLen⟩

def encodeDataRateClockResponse (msg seq level err : Byte) : Frame :=
  encodeHeader msg dataRateClockPayloadLen seq level err 0 ++ u32StoreLe defaultClockKhz ++
    u32StoreLe defaultDataRateBps

def encodeCommandFailedResponse (cmd : Command) (seq level err : Byte) : Response :=
  let rspMsg := responseMsgForBulkCommand cmd
  let failedLevel := iccCmdFail ||| level
  if rspMsg = rspDataRateAndClock then
    ⟨encodeDataRateClockResponse rspMsg seq failedLevel err, bulkHeaderLen + dataRateClockPayloadLen⟩
  else if rspMsg = rspDataBlock ∨ rspMsg = rspEscape then
    ⟨(encodeDataBlockHeader rspMsg seq 0 failedLevel 0).set 8 err, bulkHeaderLen⟩
  else ⟨encodeSlotStatus rspMsg seq failedLevel err, bulkHeaderLen⟩

def encodeSlotAbsentResponse (cmd : Command) (slot seq err : Byte) : Response :=
  let rspMsg := responseMsgForBulkCommand cmd
  let level := iccCmdFail ||| iccNoIcc
  if rspMsg = rspDataRateAndClock then
    ⟨(encodeDataRateClockResponse rspMsg seq level err).set 5 slot,
      bulkHeaderLen + dataRateClockPayloadLen⟩
  else ⟨(encodeSlotStatus rspMsg seq level err).set 5 slot, bulkHeaderLen⟩

def buildT0Params : Frame := [0x11, 0, 0, 0x0A, 0]
def buildT1Params : Frame := [0x11, 0, 0, 0x4D, 0, 0xFE, 0]

def encodeParamsResponse (seq level err protocolNum : Byte) : Frame :=
  let param := if protocolNum = protocolNumT1 then buildT1Params else buildT0Params
  encodeHeader rspParameters param.length seq level err protocolNum ++ param

/-! ### Well-formed responses -/

/-- A frame whose length field counts what follows the header, with its type, sequence number and
status. -/
structure Responds (msg seq level : Byte) (f : Frame) : Prop where
  msg : u8At f 0 = msg
  seq : u8At f 6 = seq
  status : u8At f 7 = level
  length : f.length = bulkHeaderLen + dwLength f

theorem u32LoadLe_store {value : Nat} (h : value < 4294967296) (first : Byte) (rest : Frame) :
    u32LoadLe (first :: u32StoreLe value ++ rest) 1 = value := by
  have hload : u32LoadLe (first :: u32StoreLe value ++ rest) 1 =
      (BitVec.ofNat 8 value).toNat + 256 * (BitVec.ofNat 8 (value / 256)).toNat +
        65536 * (BitVec.ofNat 8 (value / 65536)).toNat +
        16777216 * (BitVec.ofNat 8 (value / 16777216)).toNat := rfl
  rw [hload]
  simp only [BitVec.toNat_ofNat]
  omega

theorem getD_takeD (n i : Nat) (l : Frame) (h : i < n) : (l.takeD n 0).getD i 0 = l.getD i 0 := by
  induction n generalizing i l with
  | zero => omega
  | succ n ih =>
      cases i with
      | zero => cases l <;> rfl
      | succ i => cases l with
          | nil =>
              simp only [List.takeD_nil, List.getD_eq_getElem?_getD, List.getElem?_replicate, h, if_true]
              rfl
          | cons b l => exact ih i l (by omega)

namespace Response

@[simp] theorem frame_length (r : Response) : r.frame.length = r.len := List.takeD_length _ _ _

theorem u8At_frame (r : Response) {i : Nat} (h : i < r.len) : u8At r.frame i = u8At r.work i :=
  getD_takeD r.len i r.work h

theorem dwLength_frame (r : Response) (h : bulkHeaderLen ≤ r.len) : dwLength r.frame = dwLength r.work := by
  unfold bulkHeaderLen at h
  unfold dwLength u32LoadLe
  rw [r.u8At_frame (by omega), r.u8At_frame (by omega), r.u8At_frame (by omega), r.u8At_frame (by omega)]

end Response

/-- A header written over the work buffer is a well-formed response when the transfer is as long as
its length field says. -/
theorem responds_of_header {msg seq level slot param2 param3 : Byte} {n : Nat} (hn : n < 4294967296)
    (rest : Frame) {r : Response}
    (hwork : r.work = msg :: u32StoreLe n ++ (slot :: seq :: level :: param2 :: param3 :: rest))
    (hlen : r.len = bulkHeaderLen + n) : Responds msg seq level r.frame := by
  have hten : bulkHeaderLen ≤ r.len := by omega
  have hten' : 10 ≤ r.len := hten
  refine ⟨?_, ?_, ?_, ?_⟩
  · rw [r.u8At_frame (by omega), hwork]
    rfl
  · rw [r.u8At_frame (by omega), hwork]
    rfl
  · rw [r.u8At_frame (by omega), hwork]
    rfl
  · rw [r.frame_length, r.dwLength_frame hten, hwork, dwLength, u32LoadLe_store hn, hlen]

theorem responds_slotStatus (msg seq level err : Byte) :
    Responds msg seq level (Response.frame ⟨encodeSlotStatus msg seq level err, bulkHeaderLen⟩) :=
  responds_of_header (n := 0) (by decide) [] rfl rfl

theorem responds_data (seq chain : Byte) {data : Frame} (h : data.length ≤ maxXfrPayload) :
    Responds rspDataBlock seq iccActive (replyData seq chain data).frame := by
  unfold maxXfrPayload at h
  exact responds_of_header (n := data.length) (by omega) data rfl rfl

theorem responds_commandFailed (cmd : Command) (seq level err : Byte) :
    Responds (responseMsgForBulkCommand cmd) seq (iccCmdFail ||| level)
      (encodeCommandFailedResponse cmd seq level err).frame := by
  unfold encodeCommandFailedResponse
  dsimp only
  split
  · exact responds_of_header (n := 8) (by decide) _ rfl rfl
  split
  · exact responds_of_header (n := 0) (by decide) [] rfl rfl
  · exact responds_slotStatus _ _ _ _

theorem responds_slotAbsent (cmd : Command) (slot seq err : Byte) :
    Responds (responseMsgForBulkCommand cmd) seq (iccCmdFail ||| iccNoIcc)
      (encodeSlotAbsentResponse cmd slot seq err).frame := by
  unfold encodeSlotAbsentResponse
  dsimp only
  split
  · exact responds_of_header (n := 8) (by decide) _ rfl rfl
  · exact responds_of_header (n := 0) (by decide) [] rfl rfl

theorem responds_dataRateClock (seq level err : Byte) :
    Responds rspDataRateAndClock seq level
      (Response.frame ⟨encodeDataRateClockResponse rspDataRateAndClock seq level err,
        bulkHeaderLen + dataRateClockPayloadLen⟩) :=
  responds_of_header (n := 8) (by decide) _ rfl rfl

/-- The byte count that the handler takes from the protocol number is the one the encoder writes. -/
theorem responds_params (seq level err protocolNum : Byte) :
    Responds rspParameters seq level
      (Response.frame ⟨encodeParamsResponse seq level err protocolNum,
        bulkHeaderLen + if protocolNum = protocolNumT1 then t1ParamsLen else t0ParamsLen⟩) := by
  unfold encodeParamsResponse
  dsimp only
  split
  · exact responds_of_header (n := 7) (by decide) buildT1Params rfl rfl
  · exact responds_of_header (n := 5) (by decide) buildT0Params rfl rfl

end NeroReader.Ccid
