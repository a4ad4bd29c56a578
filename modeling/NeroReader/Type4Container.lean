import NeroReader.RelayRuns
import NeroReader.Type4Write

/-!
The capability container of a Type 4 card, as the reader loads it for the data object of the host. The load selects
the NDEF application on the card, so it is a program of the relay like the exchange of a command; every APDU of it
goes out through `reader_iso_dep_send_apdu`, with its GET RESPONSE rounds.
-/

namespace NeroReader.Type4

open IsoDep HostApdu SecurityKey

def isoDepApduRespMax : Nat := 256
def t4tSakIso14443_4Bit : Byte := 0x20
def sw1WrongLength : Byte := 0x6C

/-- A 6Cxx status word, with the length the card has instead. -/
def responseWrongLength (resp : Frame) : Option Byte :=
  match iso7816ResponseSw resp with
  | none => none
  | some (sw1, sw2) => if sw1 = sw1WrongLength then some sw2 else none

/-- `reader_security_key_select_app_ex` with GET RESPONSE rounds and without a buffer of the caller. -/
def selectAppFollowed (aid : Frame) (p2 : Byte) (addLe : Bool) : Relay Bool := do
  let apdu := selectAidApdu aid p2 addLe
  if ← ccidAbortPending then return false
  let resp ← sendFollowed apdu selectRespBufLen
  if swStatusWordLen ≤ resp.length then return responseSwOk resp
  if ← probeCanUpgradeCid then
    if ← recoverSession then
      if ← ccidAbortPending then return false
      let resp ← sendFollowed apdu selectRespBufLen
      return responseSwOk resp
    else return false
  else return false

/-- The loop of `reader_iso_dep_select_ndef_app`. -/
def isoDepSelectNdefApp : List (Frame × Byte × Bool) → Relay Bool
  | [] => return false
  | (aid, p2, addLe) :: variants => do
      if ← selectAppFollowed aid p2 addLe then return true else isoDepSelectNdefApp variants

/-- `reader_tags_type4_iso_read_binary`: once again with the length a 6Cxx names. -/
def isoReadBinary (offset le : Nat) : Relay Frame := do
  let resp ← sendFollowed (readBinaryApdu offset le) isoDepApduRespMax
  match responseWrongLength resp with
  | none => return resp
  | some correctLe => sendFollowed (readBinaryApdu offset correctLe.toNat) isoDepApduRespMax

/-- READ BINARY from offset 0, answered with at least so many bytes and success. -/
def isoReadCc (len : Nat) : Relay (Option Frame) := do
  let resp ← isoReadBinary 0 len
  return if resp.length < len + 2 ∨ responseSwOk resp = false then none else some resp

/-- The bytes that `nfc_tag_type4_apply_cc` keeps of a container it accepts. -/
def ccKept (cc : Frame) : Option Frame := (type4ApplyCc cc).map fun _ => cc.take ccFileLen

/-- `reader_tags_type4_load_info`, as far as the data object shows it. -/
def type4LoadInfo : Relay (Option Frame) := do
  if !(← isoDepSelectNdefApp ndefAppSelectVariants) then return none
  let resp ← sendFollowed (selectFileApdu ccFileIdHi ccFileIdLo) isoDepApduRespMax
  if responseSwOk resp = false then return none
  match ← isoReadCc ccFileLen with
  | none => return none
  | some resp =>
      let ccLen := u16At resp 0
      if ccLen < ccFileLen ∨ isoDepApduRespMax - 2 < ccLen then return none
      else if ccFileLen < ccLen then
        match ← isoReadCc ccLen with
        | none => return none
        | some resp => return ccKept (resp.take ccLen)
      else return ccKept (resp.take ccLen)

/-- `reader_tags_get_type4_info`, for the card that the reader has seen last. -/
def getType4Info (uid14 : Frame) (sak : Byte) : Relay (Option Frame) :=
  if uid14 = [] ∨ sak &&& t4tSakIso14443_4Bit = 0 then return none else type4LoadInfo

/-! ### What the load sends -/

theorem sendFollowed_performs {apdu : Frame} {respCap : Nat} {ops : List Op} {resp : Frame}
    (h : (sendFollowed apdu respCap).Performs ops resp) : ∃ received, Op.sent apdu received ∈ ops := by
  cases h with
  | sendFollowed received rounds hrounds total rest => exact ⟨received, List.mem_cons_self⟩

/-- A load that is not aborted selects the NDEF application on the card. -/
theorem type4LoadInfo_selects {ops : List Op} {info : Option Frame} (h : type4LoadInfo.Performs ops info)
    (hlooks : ∀ pending, Op.abortLooked pending ∈ ops → pending = false) :
    ∃ received, Op.sent (selectAidApdu ndefAppAid p2SelectFirst true) received ∈ ops := by
  obtain ⟨ok, first, rest, rfl, hselect, -⟩ := Relay.performs_bind h
  obtain ⟨found, variant, later, rfl, hvariant, -⟩ := Relay.performs_bind hselect
  obtain ⟨pending, look, sends, rfl, hlook, hsends⟩ := Relay.performs_bind hvariant
  cases hlook with
  | ccidAbortPending pending hdone =>
      cases hdone
      obtain rfl := hlooks pending (by simp)
      obtain ⟨resp, sent, behind, rfl, hsent, -⟩ := Relay.performs_bind hsends
      obtain ⟨received, hmem⟩ := sendFollowed_performs hsent
      exact ⟨received, by simp [hmem]⟩

end NeroReader.Type4
