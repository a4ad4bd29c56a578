import NeroReader.ContactlessEmulation
import NeroReader.RawFilter
import NeroReader.StorageRead
import NeroReader.Type4Container
import NeroReader.Type5ReadMultiple

/-!
Host payloads with any tag. `reader_ccid_dispatch_host_payload` sends a payload of the FF class to the storage
handlers, to GET DATA, to the transparent escape or to the PN53x emulation, and anything else to a Type 4 card. What
reaches such a card as an APDU, the container's load for GET DATA included, does so through the operations of the
relay.
-/

namespace NeroReader.HostDispatch

open IsoDep HostApdu SecurityKey Emulation Tags
open Storage (TagKind Medium WriteEnv appendStatus appendSuccessStatus swFuncNotSupported swVerificationFailed)
open Ccid (claProprietary insReadBinary insUpdateBinary swGeneralError swInsNotSupported swClassNotSupported
  swCommandNotAllowed)

/-! ### What the handlers read -/

/-- The reader with its tag: what it has stored of the tag, and the tag's answers. -/
structure HostReader where
  tag : Storage.Tag
  cardPresent : Bool
  /-- The UID of a Type A tag, empty where there is none. -/
  uid14 : Frame
  sak : Byte
  atqaValid : Bool
  atqa : Byte × Byte
  ats : Frame
  /-- The container's bytes of a Type 2 tag. -/
  type2Cc : Vector Byte 4
  /-- The system information of a Type 5 tag as it came. -/
  type5Raw : Frame
  transceive : Transceive
  air : Transceive
  medium : Medium
  writes : WriteEnv

namespace HostReader

/-- `reader_tags_get_typea_info`. -/
def typea (r : HostReader) : Option TypeaInfo :=
  if r.uid14 = [] then none else some ⟨r.atqaValid, r.atqa, r.sak, r.uid14, r.ats⟩

/-- `reader_tags_type2_transceive`. -/
def type2Transceive (r : HostReader) (tx : Frame) (rxMax : Nat) : Option Frame :=
  if tx = [] ∨ rxMax = 0 then none else (r.transceive tx).map (·.take rxMax)

/-- `reader_tags_type5_transceive`. A command that is too long and a tag that is not heard bring no bytes, a sample
that cannot be decoded is an error. -/
def type5Transceive (r : HostReader) (tx : Frame) (rxMax : Nat) : Option Frame :=
  if tx = [] ∨ rxMax = 0 then none
  else
    match Iso15693.streamEncode tx Iso15693.maxStreamFrame with
    | none => some []
    | some encoded =>
        let raw := ((r.air encoded).getD []).take Iso15693.maxStreamFrame
        if raw = [] then some [] else Iso15693.streamDecode raw rxMax

end HostReader

/-! ### GET DATA -/

def insGetData : Byte := 0xCA
def escapeTransparentIns : Byte := 0xC2
def getDataUid : Byte := 0x00
def getDataAts : Byte := 0x01
def getDataSak : Byte := 0x02
def getDataAtqa : Byte := 0x03
def getDataType2Version : Byte := 0x04
def getDataNtagSignature : Byte := 0x05
def getDataType5SysInfo : Byte := 0x06
def getDataType2Cc : Byte := 0x07
def getDataType2Auth0 : Byte := 0x08
def getDataType4Cc : Byte := 0x09
def getDataType5Cc : Byte := 0x0A
def getDataSakRspLen : Nat := 1
def getDataAtqaRspLen : Nat := 2
def getDataAuth0RspLen : Nat := 1

/-- Data copied into the response with 9000 behind them, or the failure where they alone do not fit. -/
def copied (failure data : Frame) (rspCap : Nat) : Frame :=
  if rspCap < data.length then appendStatus rspCap failure else appendSuccessStatus data rspCap

def notSupported (rspCap : Nat) : Frame := appendStatus rspCap swFuncNotSupported

section Handlers

variable (r : HostReader)

/-- `reader_ccid_get_data_contactless`; no bytes where the data object is not one of these. -/
def getDataContactless (p1 : Byte) (rspCap : Nat) : Frame :=
  if p1 = getDataUid then
    if r.tag.kind = .type5 then copied swGeneralError r.tag.uid15.toList rspCap
    else
      match r.typea with
      | none => notSupported rspCap
      | some typea => copied swFuncNotSupported typea.uid rspCap
  else if p1 = getDataAts then
    match r.typea with
    | none => notSupported rspCap
    | some typea => if typea.ats ≠ [] then copied swGeneralError typea.ats rspCap else notSupported rspCap
  else if p1 = getDataSak then
    match r.typea with
    | none => notSupported rspCap
    | some typea =>
        if rspCap < getDataSakRspLen + 2 then notSupported rspCap else appendSuccessStatus [typea.sak] rspCap
  else if p1 = getDataAtqa then
    match r.typea with
    | none => notSupported rspCap
    | some typea =>
        if typea.atqaValid = false ∨ rspCap < getDataAtqaRspLen + 2 then notSupported rspCap
        else appendSuccessStatus [typea.atqa.1, typea.atqa.2] rspCap
  else []

/-- The version of an NTAG21x, and its last user page. -/
def ntagVersion : Option (Frame × Nat) :=
  match r.type2Transceive [ntagCmdGetVersion] ntagVerReplyLen with
  | none => none
  | some version => if version.length < ntagVerReplyLen then none else (type2ApplyVersion version).map (version, ·)

/-- `reader_ccid_get_data_type2`. -/
def getDataType2 (p1 : Byte) (rspCap : Nat) : Frame :=
  if p1 = getDataType2Version then
    match r.tag.type2 with
    | none => notSupported rspCap
    | some type2 =>
        if r.tag.kind ≠ .type2 ∨ type2.ccValid = false then notSupported rspCap
        else
          match ntagVersion r with
          | none => notSupported rspCap
          | some (version, _) => copied swGeneralError version rspCap
  else if p1 = getDataNtagSignature then
    if r.uid14 = [] ∨ u8At r.uid14 0 ≠ mfrCodeNxp then notSupported rspCap
    else
      match r.type2Transceive [ntagCmdReadSig, 0x00] ntagSigReplyLen with
      | none => notSupported rspCap
      | some signature =>
          if signature.length < ntagSigReplyLen then notSupported rspCap else copied swGeneralError signature rspCap
  else if p1 = getDataType2Cc then
    match r.tag.type2 with
    | none => notSupported rspCap
    | some type2 =>
        if type2.ccValid = false then notSupported rspCap else copied swGeneralError r.type2Cc.toList rspCap
  else if p1 = getDataType2Auth0 then
    if r.uid14 = [] ∨ u8At r.uid14 0 ≠ mfrCodeNxp ∨ rspCap < getDataAuth0RspLen + 2 then notSupported rspCap
    else
      match ntagVersion r with
      | none => notSupported rspCap
      | some (_, maxUserPage) =>
          if maxUserPage = 0 then notSupported rspCap
          else
            match ntagReadPage r.transceive (BitVec.ofNat 8 (maxUserPage + ntagAuth0PageOffset)) with
            | none => notSupported rspCap
            | some cfg =>
                if cfg.length < t2tPageSizeBytes then notSupported rspCap
                else appendSuccessStatus [u8At cfg ntagCfgAuth0ByteIndex] rspCap
  else []

/-- `reader_ccid_get_data_type45`. -/
def getDataType45 (p1 : Byte) (rspCap : Nat) : Relay Frame :=
  if p1 = getDataType5SysInfo then
    return if r.tag.type5 = none ∨ r.type5Raw = [] then notSupported rspCap
      else copied swGeneralError r.type5Raw rspCap
  else if p1 = getDataType4Cc then do
    match ← Type4.getType4Info r.uid14 r.sak with
    | none => return notSupported rspCap
    | some cc => return copied swGeneralError cc rspCap
  else if p1 = getDataType5Cc then
    match r.tag.type5 with
    | none => return notSupported rspCap
    | some type5 =>
        return if type5.ccValid = false ∨ type5.ccLen = 0 then notSupported rspCap
          else copied swGeneralError (type5.cc.takeD type5.ccLen.toNat 0) rspCap
  else return []

/-- `reader_ccid_handle_get_data_apdu`. The three groups are asked in turn, as long as none has an answer. -/
def handleGetDataApdu (apdu : Frame) (rspCap : Nat) : Relay Frame :=
  if apdu.length < 5 ∨ rspCap < 2 then return []
  else if apdu.length ≠ 5 then return appendStatus rspCap swWrongLengthAlt
  else if u8At apdu 3 ≠ 0x00 then return notSupported rspCap
  else
    let p1 := u8At apdu 2
    let contactless := getDataContactless r p1 rspCap
    if contactless ≠ [] then return contactless
    else
      let type2 := getDataType2 r p1 rspCap
      if type2 ≠ [] then return type2
      else do
        let type45 ← getDataType45 r p1 rspCap
        return if type45 ≠ [] then type45 else notSupported rspCap

/-! ### The transparent escape -/

/-- A command of the host in its buffer. -/
def bufferOf (tx : Frame) : Buffer Byte := ⟨u8At tx, tx.length⟩

/-- `reader_ccid_handle_escape_transparent_apdu`. -/
def handleEscapeTransparentApdu (apdu : Frame) (rspCap : Nat) : Frame :=
  if apdu.length < 5 ∨ rspCap < 2 then []
  else if u8At apdu 0 ≠ claProprietary ∨ u8At apdu 1 ≠ escapeTransparentIns ∨ r.tag.kind ≠ .type5 then
    appendStatus rspCap swInsNotSupported
  else
    let lc := u8At apdu 4
    if lc = 0 ∨ apduLcBodyOk apdu lc = false then appendStatus rspCap swWrongLengthAlt
    else
      let body := apduData apdu lc
      if (r.tag.type5RawTransceiveAllowed (bufferOf body)).value = false then appendStatus rspCap swInsNotSupported
      else
        match r.type5Transceive body (rspCap - 2) with
        | none => appendStatus rspCap swVerificationFailed
        | some data => appendSuccessStatus data rspCap

/-! ### PN53x commands -/

/-- What `handle_pn53x_type2_transceive` and `handle_pn53x_type5_transceive` share: the raw filter's verdict on the
command, and the tag's answer to it. -/
def pn53xTransceive (responseCode : Byte) (tx : Frame) (allowed : Bool) (answer : Option Frame)
    (rspCap : Nat) : Frame :=
  if tx = [] ∨ rspCap < pn53xStatusReplyLen then []
  else if allowed = false then buildPn53xStatusReply responseCode pn53xStatusTimeout rspCap
  else
    match answer with
    | none => [pn53xDevPrefix, responseCode, pn53xStatusTimeout] ++ swSuccess
    | some data =>
        if rspCap < data.length + pn53xTransceiveOverhead then
          buildPn53xStatusReply responseCode pn53xStatusTimeout rspCap
        else [pn53xDevPrefix, responseCode, pn53xStatusOk] ++ data ++ swSuccess

def handlePn53xType2Transceive (responseCode : Byte) (tx : Frame) (rspCap : Nat) : Frame :=
  pn53xTransceive responseCode tx (r.tag.type2RawTransceiveAllowed (bufferOf tx)).value
    (r.type2Transceive tx (rspCap - pn53xTransceiveOverhead)) rspCap

def handlePn53xType5Transceive (responseCode : Byte) (tx : Frame) (rspCap : Nat) : Frame :=
  pn53xTransceive responseCode tx (r.tag.type5RawTransceiveAllowed (bufferOf tx)).value
    (r.type5Transceive tx (rspCap - pn53xTransceiveOverhead)) rspCap

/-- `handle_pn53x_in_data_exchange`, with its Type 4 branch in `ContactlessEmulation`. -/
def handlePn53xInDataExchange (securityKeyApp : Bool) (cmd : Frame) (rspCap : Nat) : Relay Frame :=
  if r.tag.kind = .type4 then Emulation.handlePn53xInDataExchange securityKeyApp cmd rspCap
  else if cmd.length < 4 ∨ rspCap < pn53xStatusReplyLen then return []
  else if u8At cmd 2 ≠ pn53xSingleTarget then
    return buildPn53xStatusReply pn53xRspInDataExchange pn53xStatusTimeout rspCap
  else if r.tag.kind = .type2 then
    return handlePn53xType2Transceive r pn53xRspInDataExchange (cmd.drop pn53xInDataExchangePayloadSkip) rspCap
  else return buildPn53xStatusReply pn53xRspInDataExchange pn53xStatusTimeout rspCap

def pn53xCommunicateThruPayloadSkip : Nat := 2

/-- `handle_pn53x_in_communicate_thru`. -/
def handlePn53xInCommunicateThru (cmd : Frame) (rspCap : Nat) : Frame :=
  if cmd.length < 3 then []
  else
    match r.tag.kind with
    | .type2 =>
        handlePn53xType2Transceive r pn53xRspInCommunicateThru (cmd.drop pn53xCommunicateThruPayloadSkip) rspCap
    | .type5 =>
        handlePn53xType5Transceive r pn53xRspInCommunicateThru (cmd.drop pn53xCommunicateThruPayloadSkip) rspCap
    | .type4 => buildPn53xStatusReply pn53xRspInCommunicateThru pn53xStatusTimeout rspCap
    | .none => buildPn53xStatusReply pn53xRspInCommunicateThru pn53xStatusTimeout rspCap

/-! ### The dispatcher -/

/-- The handlers of the FF class that are not the PN53x emulation. -/
def storageApdu (payload : Frame) (rspCap : Nat) : Relay Frame :=
  if u8At payload 1 = insGetData then handleGetDataApdu r payload rspCap
  else if u8At payload 1 = insReadBinary then return Storage.handleReadBinaryApdu r.tag r.medium payload rspCap
  else if u8At payload 1 = insUpdateBinary then
    return ((Storage.handleUpdateBinaryApdu r.tag r.writes payload rspCap).map (·.rsp)).getD []
  else if u8At payload 1 = escapeTransparentIns then return handleEscapeTransparentApdu r payload rspCap
  else return appendStatus rspCap swInsNotSupported

/-- What the emulation reads of the reader. -/
def env : Emulation.Env := ⟨r.cardPresent, r.typea⟩

/-- `reader_ccid_handle_acr122_direct_apdu`. -/
def handleAcr122DirectApdu (securityKeyApp : Bool) (apdu : Frame) (rspCap : Nat) : Relay Frame :=
  if apdu.length < 5 then return []
  else if apdu = [claProprietary, 0x00, acr122P1GetFirmware, 0x00, 0x00] then
    return if rspCap < acr122Firmware.length then appendStatus rspCap swGeneralError else acr122Firmware
  else if u8At apdu 0 ≠ claProprietary ∨ u8At apdu 1 ≠ 0 ∨ u8At apdu 2 ≠ 0 ∨ u8At apdu 3 ≠ 0 then
    return appendStatus rspCap swInsNotSupported
  else if apduLcBodyOk apdu (u8At apdu 4) = false ∨ (u8At apdu 4).toNat < 2 then
    return appendStatus rspCap swWrongLengthAlt
  else
    let cmd := apduData apdu (u8At apdu 4)
    if u8At cmd 0 ≠ pn53xHostPrefix then return appendStatus rspCap swInsNotSupported
    else if u8At cmd 1 = pn53xCmdGetFirmwareVersion then return buildPn53xFwVersion rspCap
    else if u8At cmd 1 = pn53xCmdInListPassiveTarget then return handlePn53xListPassive (env r) cmd rspCap
    else if u8At cmd 1 = pn53xCmdInDataExchange then handlePn53xInDataExchange r securityKeyApp cmd rspCap
    else if u8At cmd 1 = pn53xCmdInCommunicateThru then return handlePn53xInCommunicateThru r cmd rspCap
    else if u8At cmd 1 = pn53xCmdInDeselect then
      return buildPn53xStatusReply pn53xRspInDeselect pn53xStatusOk rspCap
    else if u8At cmd 1 = pn53xCmdInRelease then
      return buildPn53xStatusReply pn53xRspInRelease pn53xStatusOk rspCap
    else return buildPn53xStatusReply (u8At cmd 1 + 1) pn53xStatusContextError rspCap

/-- `reader_ccid_dispatch_host_payload`: the response, and the security-key flag of the session behind it. -/
def dispatchHostPayload (securityKeyApp : Bool) (payload : Frame) (rspCap : Nat) : Relay (Frame × Bool) :=
  if payload.length < 2 ∨ rspCap < 2 then return (appendStatus rspCap swGeneralError, securityKeyApp)
  else if u8At payload 0 = claProprietary then
    if u8At payload 1 = claIso then do
      let rsp ← handleAcr122DirectApdu r securityKeyApp payload rspCap
      return (rsp, securityKeyApp)
    else do
      let rsp ← storageApdu r payload rspCap
      return (rsp, securityKeyApp)
  else if r.tag.kind = .type2 ∨ r.tag.kind = .type5 then
    if u8At payload 0 ≠ claIso then return (appendStatus rspCap swClassNotSupported, securityKeyApp)
    else return (appendStatus rspCap swInsNotSupported, securityKeyApp)
  else if r.tag.kind = .type4 then
    if securityKeyApp = true ∧ apduSelectsNdefApp payload = true then
      return (appendStatus rspCap swCommandNotAllowed, securityKeyApp)
    else do
      let iso ← apduExchange payload rspCap
      return (if 2 ≤ iso.length then iso else appendStatus rspCap swCommandNotAllowed,
        securityKeyApp || (apduIsSelectFidoAid payload && responseSwOk iso))
  else return (appendStatus rspCap swInsNotSupported, securityKeyApp)

end Handlers

end NeroReader.HostDispatch
