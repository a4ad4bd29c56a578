import NeroReader.HostApdu
import NeroReader.IsoDepSession

/-!
`reader_security_key_apdu_exchange`: what the relay does with one command APDU of the host. It sends
APDUs to the card, opens the session again where it recovers, and looks at the abort request of the host
and at the session in between, so it is a program over these operations; delays and logging do nothing else.
-/

namespace NeroReader.SecurityKey

open IsoDep HostApdu

/-- A program of the relay. -/
inductive Relay (α : Type) where
  | done (result : α)
  /-- `reader_security_key_send_apdu_timeout_ex` without GET RESPONSE rounds. -/
  | sendApdu (apdu : Frame) (respCap frameTimeoutMs : Nat) (next : Received → Relay α)
  /-- `reader_iso_dep_send_apdu`, with the GET RESPONSE rounds. -/
  | sendFollowed (apdu : Frame) (respCap : Nat) (next : Received → Relay α)
  | recoverSession (next : Bool → Relay α)
  | ccidAbortPending (next : Bool → Relay α)
  | probeCanUpgradeCid (next : Bool → Relay α)

namespace Relay

variable {α β : Type}

def bind : Relay α → (α → Relay β) → Relay β
  | .done result, k => k result
  | .sendApdu apdu respCap frameTimeoutMs next, k =>
      .sendApdu apdu respCap frameTimeoutMs fun r => (next r).bind k
  | .sendFollowed apdu respCap next, k => .sendFollowed apdu respCap fun r => (next r).bind k
  | .recoverSession next, k => .recoverSession fun ok => (next ok).bind k
  | .ccidAbortPending next, k => .ccidAbortPending fun b => (next b).bind k
  | .probeCanUpgradeCid next, k => .probeCanUpgradeCid fun b => (next b).bind k

instance : Monad Relay where
  pure := .done
  bind := .bind

end Relay

/-- The bytes of a response; a failed call has none. -/
def bytes : Received → Frame
  | .ok resp => resp
  | .err _ => []

def sendApdu (apdu : Frame) (respCap frameTimeoutMs : Nat) : Relay Frame :=
  .sendApdu apdu respCap frameTimeoutMs fun r => .done (bytes r)

def sendFollowed (apdu : Frame) (respCap : Nat) : Relay Frame :=
  .sendFollowed apdu respCap fun r => .done (bytes r)

def recoverSession : Relay Bool := .recoverSession .done
def ccidAbortPending : Relay Bool := .ccidAbortPending .done
def probeCanUpgradeCid : Relay Bool := .probeCanUpgradeCid .done

/-! ### Constants and codecs -/

def relayExchangeTimeoutMs : Nat := 45000
def shortFrameMs : Nat := 1000
def selectRespBufLen : Nat := 64
def relayMinResponseLen : Nat := 2
def ctapMinResponseBodyLen : Nat := 3
def ctapStatusSuccess : Byte := 0x00
def abortSw : Frame := [0x69, 0x17]

def relayFailureResponse (rspCap : Nat) : Frame := if rspCap < swStatusWordLen then [] else [0x6F, 0x00]

def ctapTimeoutForCommand (ctapCmd : Byte) : Nat :=
  if ctapCommandWaits ctapCmd then relayExchangeTimeoutMs else shortFrameMs

/-- SELECT by AID for the FIDO application, in one of its variants. -/
def buildSelectFidoApdu (variant : Byte × Bool) : Frame :=
  [claIso, insSelect, p1SelectByDfName, variant.1, 8] ++ fidoAid ++ if variant.2 then [claIso] else []

/-- Whether a CTAP response is relayed as it is; otherwise the relay fails closed. -/
def ctapRelayPassthrough (raw : Frame) : Bool :=
  match iso7816ResponseSw raw with
  | none => false
  | some (sw1, sw2) =>
      if sw1 = sw1Success ∧ sw2 = sw2Success then true
      else if sw1 = sw1MoreData ∨ sw1 = sw1MoreDataVendor then true
      else if sw1WarningMin ≤ sw1 ∧ sw1 ≤ sw1GeneralError then
        !(decide (ctapMinResponseBodyLen ≤ raw.length) && u8At raw 0 == ctapStatusSuccess)
      else false

/-! ### SELECT of the FIDO application -/

/-- What a SELECT attempt leaves: whether it succeeded, and the bytes it wrote to the caller's buffer. -/
structure Selected where
  ok : Bool
  rsp : Option Frame
  deriving DecidableEq, Repr

def selectAborted (rspCap : Nat) : Selected := ⟨false, if swStatusWordLen ≤ rspCap then some abortSw else none⟩

def selectAnswered (rspCap : Nat) (resp : Frame) : Selected :=
  ⟨responseSwOk resp, if swStatusWordLen ≤ resp.length ∧ resp.length ≤ rspCap then some resp else none⟩

/-- `reader_security_key_select_app_ex`: a second attempt, behind a re-opened session, is made only when
the first one got no response from a session that can be given a CID. -/
def selectAppEx (variant : Byte × Bool) (rspCap : Nat) : Relay Selected := do
  let apdu := buildSelectFidoApdu variant
  if ← ccidAbortPending then return selectAborted rspCap
  let resp ← sendApdu apdu selectRespBufLen shortFrameMs
  if swStatusWordLen ≤ resp.length then return selectAnswered rspCap resp
  if ← probeCanUpgradeCid then
    if ← recoverSession then
      if ← ccidAbortPending then return selectAborted rspCap
      let resp ← sendApdu apdu selectRespBufLen shortFrameMs
      return selectAnswered rspCap resp
    else return selectAnswered rspCap resp
  else return selectAnswered rspCap resp

/-- The loop over the SELECT variants of `relay_select_with_recovery`, with the response in the caller's
buffer so far. -/
def selectVariants (rspCap : Nat) : List (Byte × Bool) → Frame → Relay (Bool × Frame)
  | [], rsp => return (false, rsp)
  | variant :: variants, rsp => do
      let selected ← selectAppEx variant rspCap
      let rsp := selected.rsp.getD rsp
      if selected.ok then return (true, rsp) else selectVariants rspCap variants rsp

def relaySelectWithRecovery (apdu : Frame) (rspCap : Nat) : Relay (Option Frame) := do
  let resp ← sendApdu apdu rspCap shortFrameMs
  if apduResponseHasStatusWord resp then return some resp
  if ← recoverSession then
    let resp ← sendApdu apdu rspCap shortFrameMs
    if apduResponseHasStatusWord resp then return some resp
    fallback
  else fallback
where
  fallback : Relay (Option Frame) := do
    let (ok, rsp) ← selectVariants rspCap fidoAppSelectVariants []
    return if ok ∨ relayMinResponseLen ≤ rsp.length then some rsp else none

/-- What is done in front of a SELECT step of the recovery. -/
inductive SelectPrep where
  | none
  | recover
  | settle
  deriving DecidableEq, Repr

/-- The SELECT steps of the recovery: the variant, and the preparation. -/
def webauthnSelectSteps : List ((Byte × Bool) × SelectPrep) :=
  [((0x00, true), .none), ((0x00, true), .recover), ((0x00, false), .settle), ((0x00, true), .recover)]

def selectSteps (rspCap : Nat) : List ((Byte × Bool) × SelectPrep) → Relay Bool
  | [] => return false
  | (variant, .recover) :: steps => do
      if ← recoverSession then
        let selected ← selectAppEx variant rspCap
        if selected.ok then return true else selectSteps rspCap steps
      else return false
  | (variant, _) :: steps => do
      let selected ← selectAppEx variant rspCap
      if selected.ok then return true else selectSteps rspCap steps

/-- `reader_security_key_select_fido_for_host_webauthn`. -/
def selectFidoForHostWebauthn (rspCap : Nat) : Relay Bool := selectSteps rspCap webauthnSelectSteps

/-! ### One command of the host -/

def ctapExchange (apdu : Frame) (rspCap : Nat) (ctapCmd : Byte) : Relay Frame := do
  let total ← sendApdu apdu rspCap (ctapTimeoutForCommand ctapCmd)
  if swStatusWordLen ≤ total.length then return relayed total
  if ← recoverSession then
    if ← selectFidoForHostWebauthn rspCap then
      let total ← sendApdu apdu rspCap (ctapTimeoutForCommand ctapCmd)
      return relayed total
    else return relayed total
  else return relayed total
where
  relayed (total : Frame) : Frame := if ctapRelayPassthrough total then total else relayFailureResponse rspCap

def plainExchange (apdu : Frame) (rspCap : Nat) : Relay Frame := do
  let total ← sendApdu apdu rspCap relayExchangeTimeoutMs
  return if total.length < swStatusWordLen then relayFailureResponse rspCap else total

/-- `reader_security_key_apdu_exchange`. -/
def apduExchange (apdu : Frame) (rspCap : Nat) : Relay Frame :=
  if rspCap < swStatusWordLen then return []
  else if apduIsSelectFidoAid apdu then do
    match ← relaySelectWithRecovery apdu rspCap with
    | some rsp => return rsp
    | none => return relayFailureResponse rspCap
  else
    match ctapApduCommand apdu with
    | some ctapCmd => ctapExchange apdu rspCap ctapCmd
    | none => plainExchange apdu rspCap

end NeroReader.SecurityKey
