import NeroReader.CcidSession
import NeroReader.StorageUpdate

/-!
`reader_ccid_handle_bulk`: one command frame of the host. What the handler meets outside the CCID
layer (the clock, the card, the APDU handlers, the control endpoint, the transport) is the environment
of the command; the payloads given to `dispatchHostPayload` and every transfer are recorded in order.
-/

namespace NeroReader.Ccid

open IsoDep HostApdu
open Storage (Word TagKind appendStatus)

/-- What one command meets outside the CCID layer. -/
structure BulkEnv where
  /-- `reader_hal_millis`. -/
  millis : BitVec 32
  /-- Whether the ISO-DEP session opens, and the ATS of its activation. -/
  openIsoSession : Bool
  ats : Frame
  prepareTagForPowerOn : Bool
  /-- The handlers of the FF class, from the payload and the response capacity. -/
  proprietary : Frame → Nat → Frame
  apduExchange : Frame → Nat → Frame
  /-- Time-extension callbacks of the card exchange. -/
  callbacks : Nat
  /-- The sequence number of an abort request that arrives during the exchange. -/
  abortArriving : Option Byte
  /-- Whether the transport takes the transfer. -/
  sendOk : Bool

def claProprietary : Byte := 0xFF
def insReadBinary : Byte := 0xB0
def insUpdateBinary : Byte := 0xD6

def swGeneralError : Frame := [0x6F, 0x00]
def swInsNotSupported : Frame := [0x6D, 0x00]
def swClassNotSupported : Frame := [0x6E, 0x00]
def swCommandNotAllowed : Frame := [0x69, 0xFF]

/-- The response buffer of a Type 4 exchange. -/
def apduRspBytes : Nat := 2050

namespace Reader

variable (r : Reader)

/-! ### The APDU behind a command -/

def storageXfrNeedsTimeExtension (apdu : Frame) : Bool :=
  if (r.tagKind ≠ .type2 ∧ r.tagKind ≠ .type5) ∨ apdu.length < 2 then false
  else if u8At apdu 0 ≠ claProprietary then false
  else u8At apdu 1 == insReadBinary || u8At apdu 1 == insUpdateBinary

/-- `reader_ccid_dispatch_host_payload`, with the response of the handler the payload goes to. -/
def dispatchHostPayload (env : BulkEnv) (payload : Frame) (rspCap : Nat) : Reader × Frame :=
  if payload.length < 2 then (r, appendStatus rspCap swGeneralError)
  else if u8At payload 0 ≠ claProprietary ∧ (r.tagKind = .type2 ∨ r.tagKind = .type5) ∧
      u8At payload 0 ≠ claIso then (r, appendStatus rspCap swClassNotSupported)
  else
    let (r, rsp) :=
      if u8At payload 0 = claProprietary then (r, env.proprietary payload rspCap)
      else if r.tagKind ≠ .type4 then (r, appendStatus rspCap swInsNotSupported)
      else if r.type4SecurityKeyApp = true ∧ apduSelectsNdefApp payload = true then
        (r, appendStatus rspCap swCommandNotAllowed)
      else
        let iso := env.apduExchange payload rspCap
        let r := if apduIsSelectFidoAid payload = true ∧ responseSwOk iso = true then
          { r with type4SecurityKeyApp := true } else r
        (r, if 2 ≤ iso.length then iso else appendStatus rspCap swCommandNotAllowed)
    (if rsp ≠ [] then r.noteHostSessionActivity env.millis else r, rsp)

/-! ### Chains -/

/-- `reader_ccid_append_xfr_command_chain`. -/
def appendXfrCommandChain (data : Frame) (beginChain : Bool) : Reader × Bool :=
  if data = [] then (r, false)
  else
    let r := if beginChain then r.clearXfrCommandChain else r
    if beginChain = false ∧ r.cmdChainActive = false then (r, false)
    else if extendedRspBufSize < r.cmdChainBuf.length + data.length then (r.clearXfrCommandChain, false)
    else ({ r with cmdChainBuf := r.cmdChainBuf ++ data, cmdChainActive := true }, true)

/-- `reader_ccid_send_xfr_chain_chunk`. -/
def sendXfrChainChunk (env : BulkEnv) (seq : Byte) : Turn :=
  if r.chainActive = false ∨ r.chainBuf.length ≤ r.chainOff then .silent r.clearXfrResponseChain
  else
    let chunk := min (r.chainBuf.length - r.chainOff) rspDataCap
    let chain := if r.chainOff = 0 then xfrLevelChainBegin
      else if r.chainBuf.length ≤ r.chainOff + chunk then xfrLevelChainEnd else xfrLevelChainMiddle
    let rsp := replyData seq chain ((r.chainBuf.drop r.chainOff).take chunk)
    if env.sendOk = false ∨ r.chainBuf.length ≤ r.chainOff + chunk then
      .reply r.clearXfrResponseChain rsp
    else .reply { r with chainOff := r.chainOff + chunk } rsp

/-- `reader_ccid_send_xfr_data_response`. -/
def sendXfrDataResponse (env : BulkEnv) (seq : Byte) (data : Frame) : Turn :=
  let r := r.clearXfrResponseChain
  if data.length ≤ rspDataCap then .reply r (replyData seq xfrLevelSingle data)
  else if extendedRspBufSize < data.length then .reply r (replyData seq xfrLevelSingle swGeneralError)
  else { r with chainBuf := data, chainOff := 0, chainActive := true }.sendXfrChainChunk env seq

/-! ### Commands -/

/-- A refusal with the current state of the slot. -/
def commandFailed (frame : Frame) (err : Byte) : Response :=
  encodeCommandFailedResponse (commandOf frame) (seqOf frame) r.currentIccLevel err

def commandNotSupported (msg seq : Byte) : Response :=
  ⟨encodeSlotStatus msg seq (iccCmdFail ||| r.currentIccLevel) 0, bulkHeaderLen⟩

/-- The refusals made from the frame alone, before anything of the reader changes. -/
def bulkRefusal (frame : Frame) (dataLen : Nat) : Option Response :=
  let cmd := commandOf frame
  let xfrErr := xfrLevelError (xfrLevelParameter frame) dataLen
  if slotOf frame ≠ 0 then
    some (encodeSlotAbsentResponse cmd (slotOf frame) (seqOf frame) errSlotDoesNotExist)
  else if bulkCommandRequiresZeroLength cmd = true ∧ dataLen ≠ 0 then
    some (r.commandFailed frame errBadDwLength)
  else if bulkCommandRequiresRfuZero cmd = true ∧
      (u8At frame 7 ≠ 0 ∨ u8At frame 8 ≠ 0 ∨ u8At frame 9 ≠ 0) then
    some (r.commandFailed frame errPowerSelectUnsupported)
  else if cmd = .xfr ∧ xfrErr ≠ 0 then some (r.commandFailed frame xfrErr)
  else if cmd = .iccOn ∧ (u8At frame 8 ≠ 0 ∨ u8At frame 9 ≠ 0) then
    some (r.commandFailed frame errBadLevelParameter)
  else if cmd = .setRateClock ∧ (u8At frame 7 ≠ 0 ∨ u8At frame 8 ≠ 0 ∨ u8At frame 9 ≠ 0) then
    some (r.commandFailed frame
      (if u8At frame 7 ≠ 0 then errPowerSelectUnsupported
      else if u8At frame 8 ≠ 0 then errBadLevelParameter else errParamsProtocolType))
  else none

/-- An abort request is pending for the slot, and the frame is not the command that ends it. -/
def abortRefuses (frame : Frame) : Bool :=
  match r.abortRequest with
  | none => false
  | some (slot, seq) => slotOf frame == slot && (commandOf frame != .abort || seqOf frame != seq)

def iccOff (seq : Byte) : Turn :=
  let r := r.teardownSession.setProtocol protocolNumT1
  .reply r (replySlotStat seq (if r.cardPresent then iccInactive else iccNoIcc) 0)

/-- The answer to reset is sent and the session is open. -/
def powerOnDone (env : BulkEnv) (seq : Byte) (atr : Frame) : Turn :=
  .reply ({ r with sess := true, owner := .ccid }.noteHostSessionActivity env.millis)
    (replyData seq 0 atr)

/-- The Type 4 part of PowerOn, on a torn-down session. -/
def powerOnType4 (env : BulkEnv) (seq : Byte) : Turn :=
  let r := (r.beginTimeExtension seq).setProtocol protocolNumT1
  let extensions := List.replicate env.callbacks (replyDataTimeExtension r.timeExtensionSeq).frame
  Turn.andThen ⟨r, extensions, [], []⟩ fun r =>
    match if env.openIsoSession then copyAtsAsPcscAtr env.ats rspDataCap else none with
    | none => .reply r.teardownSession (replyDataBlockError seq (iccCmdFail ||| iccInactive) errIccMute)
    | some atr => { r with isoSessionOpen := true, type4SecurityKeyApp := false }.powerOnDone env seq atr

/-- The storage part of PowerOn. -/
def powerOnStorage (env : BulkEnv) (seq : Byte) : Turn :=
  let r := r.setProtocol (protocolForTag r.tagKind)
  if env.prepareTagForPowerOn = false then
    .reply r.teardownSession (replyDataBlockError seq (iccCmdFail ||| iccInactive) errIccMute)
  else
    match copyStorageCardAtr r.tagKind rspDataCap with
    | none => .reply r (replyDataBlockError seq (iccCmdFail ||| iccNoIcc) errIccMute)
    | some atr => r.powerOnDone env seq atr

def iccOn (env : BulkEnv) (frame : Frame) : Turn :=
  let seq := seqOf frame
  let powerErr := powerSelectError (u8At frame 7)
  if powerErr ≠ 0 then .reply r (replyDataBlockError seq (iccCmdFail ||| iccInactive) powerErr)
  else
    let r := r.teardownSession
    if r.cardPresent = false ∨ r.tagKind = .none then
      .reply r (replyDataBlockError seq (iccCmdFail ||| iccNoIcc) errIccMute)
    else if r.tagKind = .type4 then r.powerOnType4 env seq
    else r.powerOnStorage env seq

/-- The three parameter commands. -/
def params (env : BulkEnv) (frame : Frame) : Turn :=
  let err := if r.cardPresent = false then errIccMute else paramErrorForRequest frame
  let level := if r.cardPresent = false then iccCmdFail ||| iccNoIcc
    else paramIccLevel frame r.replyParamStatus
  let protocolNum :=
    if r.cardPresent = true ∧ commandOf frame = .resetParams then protocolNumT1
    else if r.cardPresent = true ∧ commandOf frame = .setParams ∧ err = 0 then u8At frame 7
    else r.protocolNum
  let paramLen := if protocolNum = protocolNumT1 then t1ParamsLen else t0ParamsLen
  .reply ((r.setProtocol protocolNum).noteHostSessionActivity env.millis)
    ⟨encodeParamsResponse (seqOf frame) level err protocolNum, bulkHeaderLen + paramLen⟩

def abort (frame : Frame) : Turn :=
  let cleared := r.clearXfrResponseChain.clearXfrCommandChain
  .reply (cleared.clearAbortRequest (slotOf frame) (seqOf frame))
    (replySlotStat (seqOf frame) r.currentIccLevel 0)

def setRateClock (frame : Frame) (dataLen : Nat) : Turn :=
  let bad := dataLen ≠ dataRateClockPayloadLen
  .reply r ⟨encodeDataRateClockResponse rspDataRateAndClock (seqOf frame)
    (if bad then iccCmdFail ||| r.currentIccLevel else r.currentIccLevel)
    (if bad then errBadDwLength else 0), bulkHeaderLen + dataRateClockPayloadLen⟩

def sendsInitialTimeExtension (apdu : Frame) : Bool :=
  (r.tagKind == .type4 && apduNeedsCcidTimeExtension apdu) || r.storageXfrNeedsTimeExtension apdu

def bindsTimeExtension (apdu : Frame) : Bool := r.tagKind == .type4 || r.sendsInitialTimeExtension apdu

/-- The time-extension frames that go out until the payload is handled. -/
def timeExtensions (env : BulkEnv) (seq : Byte) (apdu : Frame) : List Frame :=
  if r.bindsTimeExtension apdu then
    List.replicate ((if r.sendsInitialTimeExtension apdu then 1 else 0) + env.callbacks)
      (replyDataTimeExtension seq).frame
  else []

/-- The reader when the payload has been handled, and the response of the handler. The abort request
that arrives meanwhile is there when the handler returns; an END block closes its chain. -/
def xfrHandled (env : BulkEnv) (frame apdu : Frame) : Reader × Frame :=
  let rspCap := if r.tagKind = .type4 then apduRspBytes else rspDataCap
  let r := if r.bindsTimeExtension apdu then r.beginTimeExtension (seqOf frame) else r
  let (r, rsp) := r.dispatchHostPayload env apdu rspCap
  let r := r.abortArrives env.abortArriving
  (if xfrLevelParameter frame = xfrLevelChainEnd.setWidth 16 then r.clearXfrCommandChain else r, rsp)

/-- The response, unless the host has asked for this command to be aborted. -/
def xfrFinish (env : BulkEnv) (frame rsp : Frame) : Turn :=
  if r.abortRequest = some (slotOf frame, seqOf frame) then
    .reply r.clearXfrResponseChain (r.commandFailed frame errCmdAborted)
  else r.sendXfrDataResponse env (seqOf frame) rsp

/-- The end of an XfrBlock whose command is complete. -/
def xfrDispatch (env : BulkEnv) (frame apdu : Frame) : Turn :=
  Turn.andThen ⟨(r.xfrHandled env frame apdu).1, r.timeExtensions env (seqOf frame) apdu, [apdu], []⟩
    fun s => s.xfrFinish env frame (r.xfrHandled env frame apdu).2

def xfr (env : BulkEnv) (frame : Frame) : Turn :=
  let seq := seqOf frame
  let levelParam := xfrLevelParameter frame
  if r.sess = false then
    .reply r (encodeCommandFailedResponse .xfr seq iccNoIcc errIccMute)
  else if levelParam = xfrLevelSingle.setWidth 16 then
    if r.cmdChainActive then
      .reply r.clearXfrCommandChain (r.clearXfrCommandChain.commandFailed frame errBadLevelParameter)
    else r.xfrDispatch env frame (payloadOf frame)
  else
    match r.appendXfrCommandChain (payloadOf frame) (levelParam == xfrLevelChainBegin.setWidth 16) with
    | (r, false) => .reply r (r.commandFailed frame errBadDwLength)
    | (r, true) =>
        if levelParam = xfrLevelChainBegin.setWidth 16 ∨ levelParam = xfrLevelChainMiddle.setWidth 16 then
          .reply r ⟨replyDataPreface seq 0 xfrResponseContinue, bulkHeaderLen⟩
        else r.xfrDispatch env frame r.cmdChainBuf

/-- The handler's switch. -/
def command (env : BulkEnv) (frame : Frame) (dataLen : Nat) : Turn :=
  match commandOf frame with
  | .slotStatus => .reply r (replySlotStat (seqOf frame) r.currentIccLevel 0)
  | .iccOff => r.iccOff (seqOf frame)
  | .iccOn => r.iccOn env frame
  | .getParams | .resetParams | .setParams => r.params env frame
  | .abort => r.abort frame
  | .iccClock | .t0Apdu | .mechanical => .reply r (r.commandNotSupported rspSlotStatus (seqOf frame))
  | .secure => .reply r (r.commandNotSupported rspDataBlock (seqOf frame))
  | .escape => .reply r (r.commandFailed frame 0)
  | .setRateClock => r.setRateClock frame dataLen
  | .xfr => r.xfr env frame
  | .other => .reply r (r.commandNotSupported rspSlotStatus (seqOf frame))

/-- What happens to the chains before a command that passed the frame checks: a response chain ends,
and a command chain ends unless the command is an XfrBlock. -/
def settleChains (frame : Frame) : Reader :=
  let r := if r.chainActive then r.clearXfrResponseChain else r
  if commandOf frame ≠ .xfr ∧ r.cmdChainActive = true then r.clearXfrCommandChain else r

/-- `reader_ccid_handle_bulk`. -/
def handleBulk (env : BulkEnv) (frame : Frame) : Turn :=
  match bulkFrameValidate frame with
  | none =>
      if bulkHeaderLen ≤ frame.length then .reply r (r.commandFailed frame errBadDwLength) else .silent r
  | some dataLen =>
      match r.bulkRefusal frame dataLen with
      | some refusal => .reply r refusal
      | none =>
          if xfrFrameRequestsResponseContinuation frame = true then
            if r.chainActive then r.sendXfrChainChunk env (seqOf frame)
            else .reply r (r.commandFailed frame errBadLevelParameter)
          else
            let r := r.settleChains frame
            if r.abortRefuses frame = true then .reply r (r.commandFailed frame errCmdAborted)
            else r.command env frame dataLen

/-- `reader_ccid_poll`: a removal that is due, then the next packet, cut to the work buffer. -/
def poll (env : BulkEnv) (packet : Option Frame) : Turn :=
  (r.pollDeferredRemoval env.millis).andThen fun r =>
    match packet with
    | none => .silent r
    | some pkt => r.handleBulk env (pkt.take workBufSize)

end Reader

end NeroReader.Ccid
