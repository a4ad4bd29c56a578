import Mathlib.Algebra.Group.Nat.Defs
import NeroReader.Dialogue
import NeroReader.FileUpdate
import NeroReader.HostApdu

/-!
The two writers of a Type 4 NDEF file: `writer_tag_write_type4_impl` of the firmware, in dialogue with the card
over ISO-DEP, and `WriteType4NdefFile` of the host, in dialogue with a reader over PC/SC. The length field of the
file is cleared, the message written in chunks behind it, and the length field set last.
-/

namespace NeroReader.Type4

open IsoDep HostApdu
open FileUpdate (Update)

/-! ### Constants -/

def insReadBinary : Byte := 0xB0
def insUpdateBinary : Byte := 0xD6
def p1SelectByFileId : Byte := 0x00
def p2SelectFirst : Byte := 0x00
def p2SelectNoFci : Byte := 0x0C
def ccFileIdHi : Byte := 0xE1
def ccFileIdLo : Byte := 0x03
def ccFileLen : Nat := 15
def nlenLen : Nat := 2
def readBinaryDataMax : Nat := 254
def updateBinaryDataMax : Nat := 240
def isoDepApduRespStack : Nat := 260
def isoDepMaxRetries : Nat := 8
def wtxAckBufLen : Nat := 4
def crcALen : Nat := 2
def writerNdefMaxBytes : Nat := 880
def t4tNdefTlvType : Byte := 0x04
def t4tNdefTlvLen : Byte := 0x06
def t4tMleMin : Nat := 0x000F
def t4tMlcMin : Nat := 1

def byte (n : Nat) : Byte := BitVec.ofNat 8 n
def u16 (n : Nat) : Nat := n % 0x10000
def u16At (buf : Frame) (i : Nat) : Nat := 256 * (u8At buf i).toNat + (u8At buf (i + 1)).toNat

/-! ### Commands -/

def selectAidApdu (aid : Frame) (p2 : Byte) (addLe : Bool) : Frame :=
  [claIso, insSelect, p1SelectByDfName, p2, byte aid.length] ++ aid ++ if addLe then [0x00] else []

def readBinaryApdu (offset le : Nat) : Frame := [claIso, insReadBinary, byte (offset / 256), byte offset, byte le]

def updateBinaryApdu (offset : Nat) (data : Frame) : Frame :=
  [claIso, insUpdateBinary, byte (offset / 256), byte offset, byte data.length] ++ data

def nlenBytes (ndefLen : Nat) : Frame := [byte (ndefLen / 256), byte ndefLen]

/-- The SELECTs of the NDEF application, in the order they are tried. -/
def ndefAppSelectVariants : List (Frame × Byte × Bool) :=
  [(ndefAppAid, p2SelectFirst, true), (ndefAppAid, p2SelectFirst, false), (ndefAppAid, p2SelectNoFci, true),
    (ndefAppAid, p2SelectNoFci, false), (ndefAppAidV0, p2SelectFirst, true), (ndefAppAidV0, p2SelectFirst, false),
    (ndefAppAidV0, p2SelectNoFci, true), (ndefAppAidV0, p2SelectNoFci, false)]

/-- Bit 8 of P1 is clear: P1 and P2 are one offset into the selected file. -/
def ShortForm (apdu : Frame) : Prop := (u8At apdu 2).toNat < 0x80

instance (apdu : Frame) : Decidable (ShortForm apdu) := inferInstanceAs (Decidable (_ < _))

/-- What an UPDATE BINARY writes to the selected file. With bit 8 of P1 set it names a file by its short EF
identifier, and P2 alone is the offset. -/
def updateOf (apdu : Frame) : Option (Update Byte) :=
  if u8At apdu 0 = claIso ∧ u8At apdu 1 = insUpdateBinary ∧ apdu.length = 5 + (u8At apdu 4).toNat ∧ ShortForm apdu then
    some ⟨u16At apdu 2, apdu.drop 5⟩
  else none

/-! ### Fields of commands and responses -/

theorem byte_toNat {n : Nat} (h : n < 256) : (byte n).toNat = n := by
  rw [byte, BitVec.toNat_ofNat, Nat.mod_eq_of_lt (by omega)]

theorem shortForm_iff (apdu : Frame) : ShortForm apdu ↔ u16At apdu 2 < 0x8000 := by
  have hlo := (u8At apdu 3).isLt
  rw [ShortForm, u16At]
  omega

theorem exists_status {resp : Frame} (h : 2 ≤ resp.length) : ∃ data sw1 sw2, resp = data ++ [sw1, sw2] := by
  refine ⟨resp.take (resp.length - 2), resp[resp.length - 2], resp[resp.length - 1], ?_⟩
  conv_lhs => rw [← List.take_append_drop (resp.length - 2) resp]
  congr 1
  rw [List.drop_eq_getElem_cons (by omega), List.drop_eq_getElem_cons (by omega), List.drop_of_length_le (by omega)]
  simp only [show resp.length - 2 + 1 = resp.length - 1 by omega]

theorem responseSw_append (data : Frame) (sw1 sw2 : Byte) :
    iso7816ResponseSw (data ++ [sw1, sw2]) = some (sw1, sw2) := by
  unfold iso7816ResponseSw
  rw [List.length_append, List.length_cons, List.length_cons, List.length_nil, if_neg (by omega),
    u8At_append_right _ _ (by omega), u8At_append_right _ _ (by omega)]
  simp

theorem responseSwOk_iff (resp : Frame) : responseSwOk resp = true ↔ ∃ data, resp = data ++ [0x90, 0x00] := by
  constructor
  · intro h
    by_cases hlen : 2 ≤ resp.length
    · obtain ⟨data, sw1, sw2, rfl⟩ := exists_status hlen
      rw [responseSwOk, responseSw_append, beq_iff_eq, Option.some.injEq, Prod.mk.injEq] at h
      obtain ⟨rfl, rfl⟩ := h
      exact ⟨data, rfl⟩
    · rw [responseSwOk, iso7816ResponseSw, if_pos (by omega)] at h
      cases h
  · rintro ⟨data, rfl⟩
    rw [responseSwOk, responseSw_append]
    rfl

/-! ### The capability container -/

structure Type4Info where
  mle : Nat
  mlc : Nat
  ndefFileId : Byte × Byte
  maxNdefSize : Nat
  readAccess : Byte
  writeAccess : Byte
  deriving DecidableEq, Repr

def Type4Info.readAccessOpen (info : Type4Info) : Bool := info.readAccess == 0x00
def Type4Info.writeAccessOpen (info : Type4Info) : Bool := info.writeAccess == 0x00

def type4ApplyCc (cc : Frame) : Option Type4Info :=
  if cc.length < ccFileLen then none
  else
    let declaredLen := u16At cc 0
    let mle := u16At cc 3
    let mlc := u16At cc 5
    if declaredLen < ccFileLen ∨ cc.length < declaredLen ∨ u8At cc 7 ≠ t4tNdefTlvType ∨ u8At cc 8 ≠ t4tNdefTlvLen ∨
        mle < t4tMleMin ∨ mlc < t4tMlcMin then none
    else some ⟨mle, mlc, (u8At cc 9, u8At cc 10), u16At cc 11, u8At cc 13, u8At cc 14⟩

def type4MaxMessageSize (maxNdefFileSize : Nat) : Option Nat :=
  if maxNdefFileSize < nlenLen then none else some (maxNdefFileSize - nlenLen)

/-! ### The chunks of a message -/

/-- A message that is addressed with short UPDATE BINARY commands behind its length field. -/
structure Message where
  bytes : Frame
  length_le : bytes.length ≤ 65534

/-- How many data bytes an UPDATE BINARY may carry. -/
structure ChunkMax where
  bytes : Nat
  pos : 0 < bytes
  le : bytes ≤ updateBinaryDataMax

def ChunkMax.ofMlc (mlc : Nat) (h : nlenLen ≤ mlc) : ChunkMax where
  bytes := min mlc updateBinaryDataMax
  pos := by
    rw [nlenLen] at h
    rw [updateBinaryDataMax]
    omega
  le := Nat.min_le_right _ _

/-- The length of the next chunk, computed in an integer of this many bits. -/
def chunkLen (bits : Nat) (max : ChunkMax) (remaining : Nat) : Nat := min (u16 remaining) max.bytes % 2 ^ bits

theorem chunkLen_eq {bits : Nat} (hbits : 8 ≤ bits) (max : ChunkMax) {remaining : Nat} (h : remaining ≤ 65534) :
    chunkLen bits max remaining = min remaining max.bytes := by
  have hle := max.le
  have hpow : 2 ^ 8 ≤ 2 ^ bits := Nat.pow_le_pow_right (by omega) hbits
  rw [updateBinaryDataMax] at hle
  unfold chunkLen u16
  rw [Nat.mod_eq_of_lt (by omega : remaining < 0x10000), Nat.mod_eq_of_lt (by omega)]

variable {Ans : Type}

/-- The write loop: from `written` on, one UPDATE BINARY a chunk. -/
def writeChunks (bits : Nat) (hbits : 8 ≤ bits) (update : Nat → Frame → Dialogue Frame Ans Bool) (ndef : Message)
    (max : ChunkMax) (finish : Dialogue Frame Ans Bool) (written : Nat) : Dialogue Frame Ans Bool :=
  if written < ndef.bytes.length then
    update (u16 (nlenLen + written))
        ((ndef.bytes.drop written).take (chunkLen bits max (ndef.bytes.length - written))) >>= fun ok =>
      if ok then
        writeChunks bits hbits update ndef max finish
          (u16 (written + chunkLen bits max (ndef.bytes.length - written)))
      else pure false
  else finish
termination_by ndef.bytes.length - written
decreasing_by
  have hlen := ndef.length_le
  have hpos := max.pos
  rw [chunkLen_eq hbits max (by omega), u16]
  omega

/-! ### The firmware writer -/

/-- The frame that ends the wait for the answer to an I-block: the S(WTX) requests of the card in front of it are
echoed, eight at most. -/
def awaitAnswer : Nat → Frame → List Frame → Option Frame
  | 0, rx, _ => some rx
  | retries + 1, rx, later =>
      if rx.length < 1 then none
      else if isSWtx rx then
        match buildWtxEcho wtxAckBufLen rx (rxHdrSkip (u8At rx 0)) with
        | none => none
        | some _ =>
            let rx := later.headD []
            if rx.length < 1 then none else awaitAnswer retries rx later.tail
      else some rx

/-- The response in the frames the card answers with, to the I-block and to the echoes of its S(WTX). -/
def isoDepResponse (frames : List Frame) : Option Frame :=
  match awaitAnswer isoDepMaxRetries (frames.headD []) frames.tail with
  | none => none
  | some rx =>
      let hdrSkip := rxHdrSkip (u8At rx 0)
      if rx.length < 1 ∨ isSWtx rx = true then none
      else if rx.length < hdrSkip + crcALen then none
      else some ((rx.drop hdrSkip).take (rx.length - hdrSkip - crcALen))

/-- `writer_iso_dep_transact`: an APDU in one I-block. -/
def writerIsoDepTransact (apdu : Frame) : Dialogue Frame (List Frame) (Option Frame) :=
  if isoDepApduRespStack - 1 < apdu.length ∨ isoDepApduRespStack < 1 + (apdu.length + crcALen) then pure none
  else .ask apdu fun frames => .done (isoDepResponse frames)

def writerTransactOk (apdu : Frame) : Dialogue Frame (List Frame) Bool := do
  let resp ← writerIsoDepTransact apdu
  return responseSwOk (resp.getD [])

/-- RATS, answered by an ATS. -/
def writerIsoDepOpen : Dialogue Frame (List Frame) Bool :=
  .ask [0xE0, 0x70] fun frames => .done (decide (2 ≤ (frames.headD []).length))

def writerSelectNdefApp : List (Frame × Byte × Bool) → Dialogue Frame (List Frame) Bool
  | [] => return false
  | (aid, p2, addLe) :: variants => do
      if ← writerTransactOk (selectAidApdu aid p2 addLe) then return true else writerSelectNdefApp variants

def selectFileApdu (hi lo : Byte) : Frame := [claIso, insSelect, p1SelectByFileId, p2SelectNoFci, 2, hi, lo]

/-- READ BINARY from offset 0, answered with at least so many bytes and success. -/
def writerReadCc (len : Nat) : Dialogue Frame (List Frame) (Option Frame) := do
  let resp ← writerIsoDepTransact (readBinaryApdu 0 len)
  let resp := resp.getD []
  return if resp.length < len + 2 ∨ responseSwOk resp = false then none else some resp

/-- The capability container, in one READ BINARY or two. -/
def writerCc : Dialogue Frame (List Frame) (Option Type4Info) := do
  match ← writerReadCc ccFileLen with
  | none => return none
  | some resp =>
      let ccLen := u16At resp 0
      if ccLen < ccFileLen ∨ isoDepApduRespStack - 2 < ccLen then return none
      else if ccFileLen < ccLen then
        match ← writerReadCc ccLen with
        | none => return none
        | some resp => return type4ApplyCc (resp.take (ccLen % 256))
      else return type4ApplyCc (resp.take (ccLen % 256))

/-- From the RATS to the SELECT of the NDEF file, with the checks of the capability container. -/
def writerSelectNdefFile (ndef : Frame) : Dialogue Frame (List Frame) (Option ChunkMax) := do
  if !(← writerIsoDepOpen) then return none
  if !(← writerSelectNdefApp ndefAppSelectVariants) then return none
  if !(← writerTransactOk (selectFileApdu ccFileIdHi ccFileIdLo)) then return none
  match ← writerCc with
  | none => return none
  | some info =>
      if info.writeAccessOpen = false then return none
      match type4MaxMessageSize info.maxNdefSize with
      | none => return none
      | some maxNdefMessageSize =>
          if maxNdefMessageSize < ndef.length then return none
          if hmlc : nlenLen ≤ info.mlc then
            if ← writerTransactOk (selectFileApdu info.ndefFileId.1 info.ndefFileId.2) then
              return some (.ofMlc info.mlc hmlc)
            else return none
          else return none

def writerUpdate (offset : Nat) (data : Frame) : Dialogue Frame (List Frame) Bool :=
  writerTransactOk (updateBinaryApdu offset data)

/-- `writer_tag_write_type4_impl`, for the message the payload encodes to. -/
def writerTagWriteType4Impl (ndef : Frame) (hcap : ndef.length ≤ writerNdefMaxBytes) :
    Dialogue Frame (List Frame) Bool := do
  if ndef.length = 0 then return false
  match ← writerSelectNdefFile ndef with
  | none => return false
  | some max =>
      if ← writerUpdate 0 (nlenBytes 0) then
        writeChunks 8 (Nat.le_refl 8) writerUpdate ⟨ndef, Nat.le_trans hcap (by decide)⟩ max
          (writerUpdate 0 (nlenBytes ndef.length)) 0
      else return false

/-! ### The host writer -/

/-- `PcscCard::Transmit`: the response APDU, or none where PC/SC reports an error. -/
def transmit (capdu : Frame) : Dialogue Frame (Option Frame) (Option Frame) := .ask capdu .done

def transmitOk (capdu : Frame) : Dialogue Frame (Option Frame) Bool := do
  match ← transmit capdu with
  | none => return false
  | some rapdu => return responseSwOk rapdu

def selectNdefApp : List (Frame × Byte × Bool) → Dialogue Frame (Option Frame) Bool
  | [] => return false
  | (aid, p2, addLe) :: variants => do
      if ← transmitOk (selectAidApdu aid p2 addLe) then return true else selectNdefApp variants

def selectBytes (p1 p2 : Byte) (data : Frame) : Dialogue Frame (Option Frame) Bool :=
  transmitOk ([claIso, insSelect, p1, p2, byte data.length] ++ data ++ [0x00])

def selectFile (hi lo : Byte) : Dialogue Frame (Option Frame) Bool := do
  if ← selectBytes p1SelectByFileId p2SelectNoFci [hi, lo] then return true
  else selectBytes p1SelectByFileId p2SelectFirst [hi, lo]

/-- READ BINARY answered with exactly as many bytes as asked for. -/
def readBinaryExact (offset len : Nat) :
    Dialogue Frame (Option Frame) (Option { data : Frame // data.length = len }) := do
  match ← transmit (readBinaryApdu offset len) with
  | none => return none
  | some rapdu =>
      if responseSwOk rapdu = false then return none
      if h : (rapdu.take (rapdu.length - 2)).length = len then return some ⟨_, h⟩ else return none

def readChunkLen (kChunkMax remaining : Nat) : Nat := min (u16 remaining) kChunkMax % 256

theorem readChunkLen_eq {kChunkMax remaining : Nat} (hmax : kChunkMax ≤ readBinaryDataMax) (h : remaining ≤ 65534) :
    readChunkLen kChunkMax remaining = min remaining kChunkMax := by
  rw [readBinaryDataMax] at hmax
  unfold readChunkLen u16
  rw [Nat.mod_eq_of_lt (by omega : remaining < 0x10000), Nat.mod_eq_of_lt (by omega)]

/-- The read loop: from `done` on, one READ BINARY a chunk. -/
def readChunks (ndefLen kChunkMax : Nat) (hlen : ndefLen ≤ 65534) (hpos : 0 < kChunkMax)
    (hmax : kChunkMax ≤ readBinaryDataMax) (done : Nat) (message : Frame) :
    Dialogue Frame (Option Frame) (Option Frame) :=
  if done < ndefLen then
    readBinaryExact (u16 (nlenLen + done)) (readChunkLen kChunkMax (ndefLen - done)) >>= fun data =>
      match data with
      | none => pure none
      | some ⟨data, _⟩ => readChunks ndefLen kChunkMax hlen hpos hmax (u16 (done + data.length)) (message ++ data)
  else pure (some message)
termination_by ndefLen - done
decreasing_by
  rename_i hdata
  rw [hdata, readChunkLen_eq hmax (by omega), u16]
  omega

/-- The capability container, in one READ BINARY or two. -/
def readCc : Dialogue Frame (Option Frame) (Option Frame) := do
  match ← readBinaryExact 0 ccFileLen with
  | none => return none
  | some ⟨cc, _⟩ =>
      let ccLen := u16At cc 0
      if ccLen < ccFileLen then return none
      else if cc.length < ccLen then
        if 255 < ccLen then return none
        match ← readBinaryExact 0 ccLen with
        | none => return none
        | some ⟨cc, _⟩ => return some cc
      else return some cc

/-- What is read of the NDEF file and of its capability container. -/
structure NdefFile where
  cc : Frame
  info : Type4Info
  maxNdefSize : Nat
  ndefMessage : Frame

/-- `ReadNdefFile`. -/
def readNdefFile : Dialogue Frame (Option Frame) (Option NdefFile) := do
  if !(← selectNdefApp ndefAppSelectVariants) then return none
  if !(← selectFile ccFileIdHi ccFileIdLo) then return none
  match ← readCc with
  | none => return none
  | some cc =>
      match type4ApplyCc cc with
      | none => return none
      | some info =>
          match type4MaxMessageSize info.maxNdefSize with
          | none => return none
          | some maxNdefSize =>
              if info.readAccessOpen = false then return none
              if !(← selectFile info.ndefFileId.1 info.ndefFileId.2) then return none
              if hmle : nlenLen ≤ info.mle then
                match ← readBinaryExact 0 nlenLen with
                | none => return none
                | some ⟨lenBytes, _⟩ =>
                    let ndefLen := u16At lenBytes 0
                    if maxNdefSize < ndefLen then return none
                    if hlen : ndefLen ≤ 65534 then
                      match ← readChunks ndefLen (min info.mle readBinaryDataMax) hlen
                          (Nat.lt_min.mpr ⟨Nat.lt_of_lt_of_le (by decide) hmle, by decide⟩)
                            (Nat.min_le_right _ _) 0 [] with
                      | none => return none
                      | some message => return some ⟨cc, info, maxNdefSize, message⟩
                    else return none
              else return none

def updateBinary (offset : Nat) (data : Frame) : Dialogue Frame (Option Frame) Bool :=
  if data = [] ∨ 255 < data.length then pure false else transmitOk (updateBinaryApdu offset data)

/-- The read-back behind a write. -/
def verifyNdefFile (ndef : Frame) : Dialogue Frame (Option Frame) Bool := do
  match ← readNdefFile with
  | none => return false
  | some file => return file.ndefMessage == ndef

/-- `WriteType4NdefFile`. -/
def writeType4NdefFile (ndef : Frame) : Dialogue Frame (Option Frame) Bool := do
  match ← readNdefFile with
  | none => return false
  | some tag =>
      if hmlc : nlenLen ≤ tag.info.mlc then
        if tag.info.writeAccessOpen = false then return false
        if tag.maxNdefSize < ndef.length then return false
        if hlen : ndef.length ≤ 65534 then
          if ← updateBinary 0 (nlenBytes 0) then
            writeChunks 16 (by decide) updateBinary ⟨ndef, hlen⟩ (.ofMlc tag.info.mlc hmlc)
              (do if ← updateBinary 0 (nlenBytes ndef.length) then verifyNdefFile ndef else return false) 0
          else return false
        else return false
      else return false

end NeroReader.Type4
