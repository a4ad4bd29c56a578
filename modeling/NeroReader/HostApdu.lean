import NeroReader.IsoDepExchange

/-!
What the CCID layer and the security-key relay read off a command APDU of the host: a SELECT of the
FIDO application, a SELECT of the NDEF application, an NFCCTAP command and the commands that get a
time extension before they are sent.
-/

namespace NeroReader.HostApdu

open IsoDep

def claIso : Byte := 0x00
def insSelect : Byte := 0xA4
def p1SelectByDfName : Byte := 0x04
def ctapCla : Byte := 0x80
def ctapInsMsg : Byte := 0x10
def ctapInsGetresponse : Byte := 0x11
def ctapP1GetresponseCancel : Byte := 0x11
def p1IgnoreMsbMask : Byte := 0x7F
def ctapCmdMakeCredential : Byte := 0x01
def ctapCmdGetAssertion : Byte := 0x02
def ctapCmdClientPin : Byte := 0x06

def fidoAid : Frame := [0xA0, 0x00, 0x00, 0x06, 0x47, 0x2F, 0x00, 0x01]
def ndefAppAid : Frame := [0xD2, 0x76, 0x00, 0x00, 0x85, 0x01, 0x01]
def ndefAppAidV0 : Frame := [0xD2, 0x76, 0x00, 0x00, 0x85, 0x01, 0x00]

/-- P2 and trailing Le of the SELECT variants for the FIDO application. -/
def fidoAppSelectVariants : List (Byte × Bool) :=
  [(0x00, false), (0x00, true), (0x0C, false), (0x0C, true)]

def apduLc (apdu : Frame) : Option Byte := if apdu.length < 5 then none else some (u8At apdu 4)
def apduLcBodyOk (apdu : Frame) (lc : Byte) : Bool := apdu.length == 5 + lc.toNat
def apduLcBodyWithLeOk (apdu : Frame) (lc : Byte) : Bool := apdu.length == 6 + lc.toNat
def apduData (apdu : Frame) (lc : Byte) : Frame := (apdu.drop 5).take lc.toNat

def fidoAppSelectVariantMatch (p2 : Byte) (addLe : Bool) : Bool :=
  fidoAppSelectVariants.contains (p2, addLe)

/-- A short SELECT of the FIDO AID, with or without the Le byte 00. -/
def apduIsSelectFidoAid (apdu : Frame) : Bool :=
  if apdu.length < 5 then false
  else if u8At apdu 0 ≠ claIso ∨ u8At apdu 1 ≠ insSelect ∨ u8At apdu 2 ≠ p1SelectByDfName ∨
      fidoAppSelectVariantMatch (u8At apdu 3) false = false then false
  else
    match apduLc apdu with
    | none => false
    | some lc =>
        if lc ≠ 8 then false
        else if apduLcBodyOk apdu lc = false ∧ apduLcBodyWithLeOk apdu lc = false then false
        else if apduData apdu lc ≠ fidoAid then false
        else if apduLcBodyWithLeOk apdu lc = true then
          u8At apdu 13 == 0x00 && fidoAppSelectVariantMatch (u8At apdu 3) true
        else true

/-- A short SELECT of one of the NDEF application AIDs; the second parameter is not looked at. -/
def apduSelectsNdefApp (apdu : Frame) : Bool :=
  if apdu.length < 5 ∨ u8At apdu 0 ≠ claIso ∨ u8At apdu 1 ≠ insSelect ∨ u8At apdu 2 ≠ p1SelectByDfName then
    false
  else
    match apduLc apdu with
    | none => false
    | some lc =>
        if lc = 0 ∨ (apduLcBodyOk apdu lc = false ∧ apduLcBodyWithLeOk apdu lc = false) then false
        else apduData apdu lc == ndefAppAid || apduData apdu lc == ndefAppAidV0

/-- The CTAP command byte of an NFCCTAP_MSG APDU, short or extended. -/
def ctapApduCommand (apdu : Frame) : Option Byte :=
  if apdu.length < 5 then none
  else if u8At apdu 0 ≠ ctapCla ∨ u8At apdu 1 ≠ ctapInsMsg ∨ u8At apdu 2 &&& p1IgnoreMsbMask ≠ 0 ∨
      u8At apdu 3 ≠ 0 then none
  else if u8At apdu 4 ≠ 0 then
    if apduLcBodyOk apdu (u8At apdu 4) = false ∧ apduLcBodyWithLeOk apdu (u8At apdu 4) = false then none
    else some (u8At apdu 5)
  else if apdu.length < 8 then none
  else
    let lc := 256 * (u8At apdu 5).toNat + (u8At apdu 6).toNat
    if lc = 0 ∨ (apdu.length ≠ 7 + lc ∧ apdu.length ≠ 7 + lc + 2) then none
    else some (u8At apdu 7)

def ctapApduIsGetresponse (apdu : Frame) : Bool :=
  if apdu.length < 4 then false
  else u8At apdu 0 == ctapCla && u8At apdu 1 == ctapInsGetresponse && u8At apdu 3 == 0 &&
    (u8At apdu 2 == 0 || u8At apdu 2 == ctapP1GetresponseCancel)

/-- The CTAP commands that may wait for the user. -/
def ctapCommandWaits (cmd : Byte) : Bool :=
  cmd == ctapCmdMakeCredential || cmd == ctapCmdGetAssertion || cmd == ctapCmdClientPin

def apduNeedsCcidTimeExtension (apdu : Frame) : Bool :=
  if apduIsSelectFidoAid apdu = true then true
  else if ctapApduIsGetresponse apdu = true then true
  else
    match ctapApduCommand apdu with
    | none => false
    | some cmd => ctapCommandWaits cmd

def responseSwOk (resp : Frame) : Bool := iso7816ResponseSw resp == some (sw1Success, sw2Success)

example : apduIsSelectFidoAid ([0x00, 0xA4, 0x04, 0x00, 0x08] ++ fidoAid ++ [0x00]) = true := by decide

end NeroReader.HostApdu
