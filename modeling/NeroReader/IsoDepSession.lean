import NeroReader.IsoDepTransceive

/-!
`reader_security_key_iso_dep_recover_session`: DESELECT, select the card again, open the ISO-DEP session
with an RATS. An ATS that the reader accepts sets the link parameters of the new session and its block
number; everything else leaves the session as it was.
-/

namespace NeroReader.IsoDep

def atsMinLen : Nat := 2
def atsDataCap : Nat := 64
def fscMax : Nat := 256
def fwiDefault : Nat := 4
def fwiMax : Nat := 14
def atsT0FsciMask : Byte := 0x0F
def atsT0TaMask : Byte := 0x10
def atsT0TbMask : Byte := 0x20
def atsT0TcMask : Byte := 0x40
def atsTcCidBit : Byte := 0x02

def fscFromFsci (fsci : Nat) : Nat := [16, 24, 32, 40, 48, 64, 96, 128, 256].getD fsci fscMax

/-- What the session takes over from an ATS. -/
structure AtsProfile where
  picFrameMax : Nat
  fwtUs : Nat
  tc : Option Byte
  deriving DecidableEq, Repr

def parseAtsProfile (ats : Frame) : Option AtsProfile :=
  if ats.length < atsMinLen then none
  else
    let t0 := u8At ats 1
    let posTb := if t0 &&& atsT0TaMask ≠ 0 ∧ 2 < ats.length then 3 else 2
    let hasTb := t0 &&& atsT0TbMask ≠ 0 ∧ posTb < ats.length
    let fwi := if hasTb then (u8At ats posTb >>> 4).toNat else fwiDefault
    let posTc := if hasTb then posTb + 1 else posTb
    if fwiMax < fwi then none
    else
      some ⟨fscFromFsci (t0 &&& atsT0FsciMask).toNat, fwtUsFromFwi fwi,
        if t0 &&& atsT0TcMask ≠ 0 ∧ posTc < ats.length then some (u8At ats posTc) else none⟩

/-- The ATS in the answer to an RATS: as long as its first byte says. -/
def commitRatsRx (rx : Frame) : Option Frame :=
  let tl := (u8At rx 0).toNat
  if rx.length < atsMinLen then none
  else if tl < atsMinLen ∨ rx.length < tl ∨ atsDataCap < tl then none
  else some (rx.take tl)

/-- What a re-activation meets: whether the card is selected again behind the DESELECT, and its answers
to the three RATS. -/
structure Reopening where
  activated : Bool
  ats5a : Frame
  ats5b : Frame
  ats5c : Frame
  deriving DecidableEq, Repr

namespace Session

variable (s : Session)

def parseAts (ats : Frame) : Session :=
  match parseAtsProfile ats with
  | none => { s with haveTc := false, fwtUs := fwtUsFromFwi fwiDefault }
  | some profile =>
      { s with
        haveTc := profile.tc.isSome
        tcByte := profile.tc.getD s.tcByte
        picFrameMax := profile.picFrameMax
        fwtUs := profile.fwtUs }

/-- The session behind an RATS, with the CID that goes into every PCB from now on. -/
def ratsStep (rx : Frame) (cid : Byte) (hcid : cid ≤ 14) : Option Session :=
  match commitRatsRx rx with
  | none => none
  | some ats => some { s.parseAts ats with pcbHasCid := true, cid := cid, cid_le := hcid, blockNum := 0 }

def openMainFromActive (r : Reopening) : Option Session :=
  match s.ratsStep r.ats5a 0 zero_le_cidMax with
  | some opened => some opened
  | none =>
      match s.ratsStep r.ats5b 0 zero_le_cidMax with
      | some opened => some opened
      | none => s.ratsStep r.ats5c 1 one_le_cidMax

/-- `reader_security_key_iso_dep_recover_session`; `none` when it returns false, which leaves the session
alone. -/
def recoverSession (r : Reopening) : Option Session :=
  if r.activated = false then none else s.openMainFromActive r

/-- A session without a CID in the PCB, on a card that supports one. -/
def probeCanUpgradeCid : Bool := s.haveTc && (s.tcByte &&& atsTcCidBit) != 0 && !s.pcbHasCid

theorem ratsStep_blockNum {s opened : Session} {rx : Frame} {cid : Byte} {hcid : cid ≤ 14}
    (h : s.ratsStep rx cid hcid = some opened) : opened.blockNum = 0 := by
  unfold ratsStep at h
  split at h
  · cases h
  · cases h
    rfl

/-- A session that was opened again starts with block number 0. -/
theorem recoverSession_blockNum {s opened : Session} {r : Reopening} (h : s.recoverSession r = some opened) :
    opened.blockNum = 0 := by
  unfold recoverSession at h
  split at h
  · cases h
  unfold openMainFromActive at h
  split at h
  · rename_i hstep
    cases h
    exact ratsStep_blockNum hstep
  split at h
  · rename_i hstep
    cases h
    exact ratsStep_blockNum hstep
  · exact ratsStep_blockNum h

end Session

end NeroReader.IsoDep
