import NeroReader.CcidBulk
import NeroReader.RelayRuns

/-!
The PN53x commands of the ACR122 emulation. InDataExchange brings an APDU of the host to a Type 4 card through the
security-key relay, behind a gate of its own; the other commands are answered by the reader.
-/

namespace NeroReader.Emulation

open IsoDep HostApdu SecurityKey
open Storage (appendStatus)
open Ccid (claProprietary swGeneralError swInsNotSupported swCommandNotAllowed)

def pn53xHostPrefix : Byte := 0xD4
def pn53xDevPrefix : Byte := 0xD5
def pn53xCmdGetFirmwareVersion : Byte := 0x02
def pn53xCmdInDataExchange : Byte := 0x40
def pn53xRspInDataExchange : Byte := 0x41
def pn53xCmdInCommunicateThru : Byte := 0x42
def pn53xRspInCommunicateThru : Byte := 0x43
def pn53xCmdInDeselect : Byte := 0x44
def pn53xRspInDeselect : Byte := 0x45
def pn53xCmdInListPassiveTarget : Byte := 0x4A
def pn53xRspInListPassiveTarget : Byte := 0x4B
def pn53xCmdInRelease : Byte := 0x52
def pn53xRspInRelease : Byte := 0x53
def pn53xStatusOk : Byte := 0x00
def pn53xStatusTimeout : Byte := 0x01
def pn53xStatusContextError : Byte := 0x27
def pn53xBrTy106kbpsTypeA : Byte := 0x00
def pn53xSingleTarget : Byte := 0x01
def pn53xStatusReplyLen : Nat := 5
def pn53xTransceiveOverhead : Nat := 5
def pn53xFwVersionReplyLen : Nat := 8
def pn53xListPassiveBaseNeeded : Nat := 8
def pn53xInDataExchangePayloadSkip : Nat := 3
def acr122P1GetFirmware : Byte := 0x48
def ctapInsControl : Byte := 0x12
def ctapP1ControlEnd : Byte := 0x01
def swSuccess : Frame := [0x90, 0x00]
def swWrongLengthAlt : Frame := [0x67, 0x00]

/-- `reader_tag_typea_info_t`, as far as the target list shows it. -/
structure TypeaInfo where
  atqaValid : Bool
  atqa : Byte × Byte
  sak : Byte
  uid : Frame
  ats : Frame
  deriving DecidableEq, Repr

/-- What the handlers read of the reader beside the card. -/
structure Env where
  cardPresent : Bool
  typea : Option TypeaInfo

def ctapApduIsControlEnd (apdu : Frame) : Bool :=
  if apdu.length < 4 then false
  else if u8At apdu 0 ≠ ctapCla ∨ u8At apdu 1 ≠ ctapInsControl ∨ u8At apdu 2 ≠ ctapP1ControlEnd ∨
      u8At apdu 3 ≠ 0 then false
  else apdu.length == 4 || (apdu.length == 5 && u8At apdu 4 == 0)

def buildPn53xFwVersion (rspCap : Nat) : Frame :=
  if rspCap < pn53xFwVersionReplyLen then [] else [pn53xDevPrefix, 0x03, 0x32, 0x01, 0x06, 0x07] ++ swSuccess

def buildPn53xStatusReply (responseCode status : Byte) (rspCap : Nat) : Frame :=
  if rspCap < pn53xStatusReplyLen then [] else [pn53xDevPrefix, responseCode, status] ++ swSuccess

def handlePn53xListPassive (env : Env) (cmd : Frame) (rspCap : Nat) : Frame :=
  if cmd.length < 4 ∨ rspCap < pn53xStatusReplyLen then []
  else
    let none_ := [pn53xDevPrefix, pn53xRspInListPassiveTarget, pn53xStatusOk] ++ swSuccess
    match env.typea with
    | none => none_
    | some typea =>
        if env.cardPresent = false ∨ u8At cmd 2 ≠ pn53xSingleTarget ∨ u8At cmd 3 ≠ pn53xBrTy106kbpsTypeA ∨
            typea.atqaValid = false then none_
        else if rspCap < pn53xListPassiveBaseNeeded + typea.uid.length +
            (if typea.ats ≠ [] then typea.ats.length + 1 else 0) + 2 then
          buildPn53xStatusReply pn53xRspInListPassiveTarget pn53xStatusTimeout rspCap
        else
          [pn53xDevPrefix, pn53xRspInListPassiveTarget, pn53xSingleTarget, pn53xSingleTarget, typea.atqa.1,
            typea.atqa.2, typea.sak, BitVec.ofNat 8 typea.uid.length] ++ typea.uid ++
            (if typea.ats ≠ [] then BitVec.ofNat 8 typea.ats.length :: typea.ats else []) ++ swSuccess

/-- The gate in front of the relay for an APDU inside InDataExchange. -/
def inDataExchangeRefuses (securityKeyApp : Bool) (inner : Frame) : Bool :=
  (securityKeyApp && apduSelectsNdefApp inner) || apduIsSelectFidoAid inner || (ctapApduCommand inner).isSome ||
    ctapApduIsGetresponse inner || ctapApduIsControlEnd inner

/-- `handle_pn53x_in_data_exchange` with a Type 4 card. -/
def handlePn53xInDataExchange (securityKeyApp : Bool) (cmd : Frame) (rspCap : Nat) : Relay Frame :=
  if cmd.length < 4 ∨ rspCap < pn53xStatusReplyLen then return []
  else if u8At cmd 2 ≠ pn53xSingleTarget then
    return buildPn53xStatusReply pn53xRspInDataExchange pn53xStatusTimeout rspCap
  else
    let inner := cmd.drop pn53xInDataExchangePayloadSkip
    if inDataExchangeRefuses securityKeyApp inner = true then
      return buildPn53xStatusReply pn53xRspInDataExchange pn53xStatusTimeout rspCap
    else do
      let iso ← apduExchange inner (rspCap - pn53xTransceiveOverhead)
      return if iso.length < 2 then [pn53xDevPrefix, pn53xRspInDataExchange, pn53xStatusTimeout] ++ swSuccess
        else if rspCap < iso.length + pn53xTransceiveOverhead then
          buildPn53xStatusReply pn53xRspInDataExchange pn53xStatusTimeout rspCap
        else [pn53xDevPrefix, pn53xRspInDataExchange, pn53xStatusOk] ++ iso ++ swSuccess

def acr122Firmware : Frame := [0x41, 0x43, 0x52, 0x31, 0x32, 0x32, 0x55, 0x32, 0x30, 0x33]

end NeroReader.Emulation
