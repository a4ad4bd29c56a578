import Mathlib.Data.List.Basic
import Mathlib.Data.Fintype.Basic

/-!
The ISO-DEP frame layer of the reader: CRC_A, the status-word heuristics that look for a CRC left
behind a response, the header of a received block, and the R-blocks and I-blocks of a chained
transfer. A frame is the list of bytes the front end's FIFO held, so its length is the receive
length, and a read outside a frame gives zero as the bounded loads of the source do.
-/

namespace NeroReader

abbrev Byte := BitVec 8

instance : LawfulBEq Byte := inferInstance

/-- The bytes of a frame, an APDU or a buffer prefix. -/
abbrev Frame := List Byte

/-- A bounded load: zero outside the buffer. -/
def u8At (buf : Frame) (off : Nat) : Byte := buf.getD off 0

@[simp] theorem u8At_cons_zero (b : Byte) (rest : Frame) : u8At (b :: rest) 0 = b := rfl

@[simp] theorem u8At_cons_succ (b : Byte) (rest : Frame) (i : Nat) :
    u8At (b :: rest) (i + 1) = u8At rest i := rfl

theorem u8At_append_right (xs ys : Frame) {i : Nat} (h : xs.length ≤ i) :
    u8At (xs ++ ys) i = u8At ys (i - xs.length) := by
  simp only [u8At, List.getD_eq_getElem?_getD, List.getElem?_append_right h]

theorem u8At_append_left (xs ys : Frame) {i : Nat} (h : i < xs.length) :
    u8At (xs ++ ys) i = u8At xs i := by
  simp only [u8At, List.getD_eq_getElem?_getD, List.getElem?_append_left h]

theorem u8At_take (xs : Frame) {i n : Nat} (h : i < n) : u8At (xs.take n) i = u8At xs i := by
  rw [u8At, u8At, List.getD_eq_getElem?_getD, List.getD_eq_getElem?_getD, List.getElem?_take_of_lt h]

namespace IsoDep

/-! ### Constants -/

def crcAInit : BitVec 16 := 0x6363
def crcLen : Nat := 2
def pcbClassMask : Byte := 0xC0
def pcbClassIBlock : Byte := 0x00
def pcbClassRBlock : Byte := 0x80
def pcbClassSBlock : Byte := 0xC0
def pcbCidBit : Byte := 0x08
def pcbNadBit : Byte := 0x04
def pcbChainBit : Byte := 0x10
def pcbIBlockBase : Byte := 0x02
def pcbRBlockBase : Byte := 0xA2
def pcbRBlockExpectMask : Byte := 0xE6
def pcbSWtx : Byte := 0xF2
def pcbSWtxMask : Byte := 0xF7
def wtxmMask : Byte := 0x3F
def blockNumMask : Byte := 0x01
def minTrimLen : Nat := 4
def selectRespProbeMaxLen : Nat := 100
def selectRespLenMax : Byte := 0x07

def sw1Success : Byte := 0x90
def sw2Success : Byte := 0x00
def sw1MoreData : Byte := 0x61
def sw1MoreDataVendor : Byte := 0x91
def sw1WarningMin : Byte := 0x62
def sw1WrongLengthAlt : Byte := 0x67
def sw1GeneralError : Byte := 0x6F

/-! ### CRC_A -/

def crcAStep (crc : BitVec 16) (byte : Byte) : BitVec 16 :=
  let b := byte ^^^ crc.setWidth 8
  let b := b ^^^ (b <<< 4)
  (crc >>> 8) ^^^ (b.setWidth 16 <<< 8) ^^^ (b.setWidth 16 <<< 3) ^^^ (b.setWidth 16 >>> 4)

def crcA (buf : Frame) : BitVec 16 := buf.foldl crcAStep crcAInit

/-- The two bytes CRC_A adds to a frame, low byte first. -/
def crcABytes (buf : Frame) : Frame := [(crcA buf).setWidth 8, (crcA buf >>> 8).setWidth 8]

def hasCrcASuffix (frame : Frame) : Bool :=
  if frame.length < 3 then false
  else
    let crc := crcA (frame.take (frame.length - crcLen))
    u8At frame (frame.length - 2) == crc.setWidth 8 &&
      u8At frame (frame.length - 1) == (crc >>> 8).setWidth 8

@[simp] theorem crcABytes_length (buf : Frame) : (crcABytes buf).length = 2 := rfl

/-- A frame that ends in its CRC is recognised. -/
theorem hasCrcASuffix_append {body : Frame} (hbody : body ≠ []) :
    hasCrcASuffix (body ++ crcABytes body) = true := by
  have hlen : 1 ≤ body.length := List.length_pos_iff.mpr hbody
  unfold hasCrcASuffix
  rw [if_neg (by simp only [List.length_append, crcABytes_length]; omega)]
  have htake : (body ++ crcABytes body).take ((body ++ crcABytes body).length - crcLen) = body := by
    simp [crcLen]
  have hlo : (body ++ crcABytes body).length - 2 = body.length := by simp
  have hhi : (body ++ crcABytes body).length - 1 = body.length + 1 := by simp
  dsimp only
  rw [htake, hlo, hhi, u8At_append_right _ _ (Nat.le_refl _), u8At_append_right _ _ (Nat.le_succ _)]
  simp [crcABytes]

def chainedCrcTailLen (pcb : Byte) (frame : Frame) : Nat :=
  if pcb &&& pcbChainBit = 0 ∨ hasCrcASuffix frame = false then 0 else crcLen

/-! ### Status words and the CRC trim -/

/-- How much two bytes look like a status word: 0 not at all, 4 for a continuation. -/
def sw16Confidence (s1 s2 : Byte) : Nat :=
  if s1 = sw1MoreData then 4
  else if s1 = sw1Success ∧ s2 = sw2Success then 3
  else if sw1WrongLengthAlt ≤ s1 ∧ s1 ≤ sw1GeneralError then 3
  else if sw1WarningMin ≤ s1 ∧ s1 ≤ sw1GeneralError then 1
  else 0

/-- The length `buf` keeps when its last two bytes are taken for a CRC. -/
def trimCrcSuffix (buf : Frame) : Frame :=
  let len := buf.length
  if len < minTrimLen then buf
  else
    let tail1 := u8At buf (len - 2)
    let before1 := u8At buf (len - 4)
    let before2 := u8At buf (len - 3)
    let tailConfidence := sw16Confidence tail1 (u8At buf (len - 1))
    let beforeTailConfidence := sw16Confidence before1 before2
    if (before1 = sw1MoreData ∨ (before1 = sw1Success ∧ before2 = sw2Success)) ∧
        tail1 ≠ sw1MoreData then buf.take (len - crcLen)
    else if beforeTailConfidence ≠ 0 ∧
        (tailConfidence = 0 ∨ tailConfidence < beforeTailConfidence) then buf.take (len - crcLen)
    else buf

/-- Two bytes that the trim keeps when two others follow them. -/
def Outranks (before1 before2 tail1 tail2 : Byte) : Prop :=
  ((before1 = sw1MoreData ∨ (before1 = sw1Success ∧ before2 = sw2Success)) ∧ tail1 ≠ sw1MoreData) ∨
    sw16Confidence tail1 tail2 < sw16Confidence before1 before2

instance (before1 before2 tail1 tail2 : Byte) : Decidable (Outranks before1 before2 tail1 tail2) :=
  inferInstanceAs (Decidable (_ ∨ _))

theorem trimCrcSuffix_short {buf : Frame} (h : buf.length < minTrimLen) : trimCrcSuffix buf = buf := by
  simp only [trimCrcSuffix, if_pos h]

/-- The trim, on the four bytes it looks at. -/
theorem trimCrcSuffix_append (xs : Frame) (b1 b2 t1 t2 : Byte) :
    trimCrcSuffix (xs ++ [b1, b2, t1, t2]) =
      if Outranks b1 b2 t1 t2 then xs ++ [b1, b2] else xs ++ [b1, b2, t1, t2] := by
  have hlen : (xs ++ [b1, b2, t1, t2]).length = xs.length + 4 := by simp
  have hcut : (xs ++ [b1, b2, t1, t2]).take (xs.length + 4 - crcLen) = xs ++ [b1, b2] := by
    rw [show xs.length + 4 - crcLen = xs.length + 2 by simp [crcLen], List.take_length_add_append]
    rfl
  have hat : ∀ i j, j = xs.length + i → u8At (xs ++ [b1, b2, t1, t2]) j = u8At [b1, b2, t1, t2] i := by
    rintro i j rfl
    rw [u8At_append_right _ _ (Nat.le_add_right _ _), Nat.add_sub_cancel_left]
  have hb1 : u8At (xs ++ [b1, b2, t1, t2]) (xs.length + 4 - 4) = b1 := hat 0 _ (by omega)
  have hb2 : u8At (xs ++ [b1, b2, t1, t2]) (xs.length + 4 - 3) = b2 := hat 1 _ (by omega)
  have ht1 : u8At (xs ++ [b1, b2, t1, t2]) (xs.length + 4 - 2) = t1 := hat 2 _ (by omega)
  have ht2 : u8At (xs ++ [b1, b2, t1, t2]) (xs.length + 4 - 1) = t2 := hat 3 _ (by omega)
  unfold trimCrcSuffix
  dsimp only
  rw [hlen, if_neg (by simp [minTrimLen]), hcut, hb1, hb2, ht1, ht2]
  by_cases hstrong : (b1 = sw1MoreData ∨ (b1 = sw1Success ∧ b2 = sw2Success)) ∧ t1 ≠ sw1MoreData
  · have hout : Outranks b1 b2 t1 t2 := Or.inl hstrong
    rw [if_pos hstrong, if_pos hout]
  · rw [if_neg hstrong]
    by_cases hconf : sw16Confidence t1 t2 < sw16Confidence b1 b2
    · have hout : Outranks b1 b2 t1 t2 := Or.inr hconf
      rw [if_pos ⟨by omega, Or.inr hconf⟩, if_pos hout]
    · have hout : ¬Outranks b1 b2 t1 t2 := fun h => h.elim hstrong hconf
      rw [if_neg (by omega), if_neg hout]

/-- The last two bytes of a body outrank two bytes behind it. -/
def EndOutranks (body : Frame) (tail1 tail2 : Byte) : Prop :=
  2 ≤ body.length ∧
    Outranks (u8At body (body.length - 2)) (u8At body (body.length - 1)) tail1 tail2

instance (body : Frame) (tail1 tail2 : Byte) : Decidable (EndOutranks body tail1 tail2) :=
  inferInstanceAs (Decidable (_ ∧ _))

theorem endOutranks_append (xs : Frame) (b1 b2 t1 t2 : Byte) :
    EndOutranks (xs ++ [b1, b2]) t1 t2 ↔ Outranks b1 b2 t1 t2 := by
  have hlen : (xs ++ [b1, b2]).length = xs.length + 2 := by simp
  unfold EndOutranks
  rw [hlen, show xs.length + 2 - 2 = xs.length by omega, show xs.length + 2 - 1 = xs.length + 1 by omega,
    u8At_append_right _ _ (Nat.le_refl _), u8At_append_right _ _ (Nat.le_add_right _ _), Nat.sub_self,
    Nat.add_sub_cancel_left]
  exact ⟨fun h => h.2, fun h => ⟨by omega, h⟩⟩

/-- The trim takes two bytes off a buffer exactly when the bytes before them outrank them. -/
theorem trimCrcSuffix_concat (body : Frame) (t1 t2 : Byte) :
    trimCrcSuffix (body ++ [t1, t2]) = if EndOutranks body t1 t2 then body else body ++ [t1, t2] := by
  by_cases hlen : 2 ≤ body.length
  · obtain ⟨xs, ys, rfl, hys⟩ : ∃ xs ys, body = xs ++ ys ∧ ys.length = 2 :=
      ⟨body.take (body.length - 2), body.drop (body.length - 2), (List.take_append_drop _ _).symm,
        by rw [List.length_drop]; omega⟩
    obtain ⟨b1, b2, rfl⟩ := List.length_eq_two.mp hys
    rw [List.append_assoc, List.cons_append, List.cons_append, List.nil_append, trimCrcSuffix_append]
    by_cases hout : Outranks b1 b2 t1 t2
    · rw [if_pos hout, if_pos ((endOutranks_append _ _ _ _ _).mpr hout)]
    · rw [if_neg hout, if_neg (fun h => hout ((endOutranks_append _ _ _ _ _).mp h))]
  · rw [if_neg (fun h => hlen h.1), trimCrcSuffix_short]
    simp only [List.length_append, List.length_cons, List.length_nil, minTrimLen]
    omega

/-- The trim keeps the buffer or drops two of at least four bytes. -/
theorem trimCrcSuffix_cases (buf : Frame) :
    trimCrcSuffix buf = buf ∨
      (4 ≤ buf.length ∧ trimCrcSuffix buf = buf.take (buf.length - 2)) := by
  by_cases hlen : buf.length < minTrimLen
  · exact Or.inl (trimCrcSuffix_short hlen)
  · have h4 : 4 ≤ buf.length := Nat.le_of_not_lt hlen
    unfold trimCrcSuffix
    dsimp only
    rw [if_neg hlen]
    split
    · exact Or.inr ⟨h4, rfl⟩
    split
    · exact Or.inr ⟨h4, rfl⟩
    · exact Or.inl rfl

def apduResponseHasStatusWord (rsp : Frame) : Bool :=
  if rsp.length < 2 then false
  else
    let sw1 := u8At rsp (rsp.length - 2)
    let sw2 := u8At rsp (rsp.length - 1)
    sw1 == sw1Success || (sw1 == sw1MoreDataVendor && sw2 == sw2Success) ||
      (decide (sw1MoreData ≤ sw1) && decide (sw1 ≤ sw1GeneralError))

theorem apduResponseHasStatusWord_pair (sw1 sw2 : Byte) :
    apduResponseHasStatusWord [sw1, sw2] = true ↔
      sw1 = sw1Success ∨ (sw1 = sw1MoreDataVendor ∧ sw2 = sw2Success) ∨
        (sw1MoreData ≤ sw1 ∧ sw1 ≤ sw1GeneralError) := by
  simp [apduResponseHasStatusWord, u8At, or_assoc]

/-- No status word begins with a small byte. -/
theorem not_le_of_hasStatusWord {sw1 sw2 : Byte} (h : apduResponseHasStatusWord [sw1, sw2] = true) :
    ¬sw1 ≤ 14 := by
  intro hle
  rcases (apduResponseHasStatusWord_pair sw1 sw2).mp h with rfl | ⟨rfl, -⟩ | ⟨hmin, -⟩
  · exact absurd hle (by decide)
  · exact absurd hle (by decide)
  · exact absurd (BitVec.le_trans hmin hle) (by decide)

/-! ### The header of a received block -/

def rxHdrSkip (pcb : Byte) : Nat :=
  1 + (if pcb &&& pcbCidBit ≠ 0 then 1 else 0) + (if pcb &&& pcbNadBit ≠ 0 then 1 else 0)

theorem one_le_rxHdrSkip (pcb : Byte) : 1 ≤ rxHdrSkip pcb := by
  unfold rxHdrSkip
  omega

def infFirstPlausibleSelectResp (b : Byte) : Bool :=
  b == sw1MoreData || b == sw1WarningMin || b == 0x64 || b == sw1WrongLengthAlt ||
    b == sw1GeneralError || b == 0x53 || b == 0x78 || b == sw1Success ||
    (decide (0x63 ≤ b) && decide (b ≤ 0x6E))

/-- Where the INF field of a received frame is taken to start. -/
def pickInfOffset (rx : Frame) (pcbHasCid : Bool) (cid : Byte) (haveTc : Bool) (tcByte : Byte) : Nat :=
  if rx.length < 1 then 0
  else
    let pcb := u8At rx 0
    let nstd := rxHdrSkip pcb
    if pcb &&& pcbClassMask ≠ pcbClassIBlock ∨ pcbHasCid = false then nstd
    else if cid ≠ 0 ∧ minTrimLen ≤ rx.length ∧ pcb &&& pcbCidBit = 0 ∧ u8At rx 1 = cid then 2
    else if haveTc = true ∧ tcByte &&& blockNumMask ≠ 0 ∧ pcb &&& pcbCidBit ≠ 0 ∧
        pcb &&& pcbNadBit = 0 ∧ pcb &&& pcbChainBit = 0 ∧ 2 ≤ nstd ∧ nstd + 3 ≤ rx.length ∧
        rx.length ≤ selectRespProbeMaxLen ∧ u8At rx nstd ≤ selectRespLenMax ∧
        infFirstPlausibleSelectResp (u8At rx (nstd + 1)) = true then nstd + 1
    else nstd

def rxIBlockNumberMatches (rx : Frame) (expectedBlock : Byte) : Bool :=
  if rx.length < 1 then false
  else
    let pcb := u8At rx 0
    if pcb &&& pcbClassMask ≠ pcbClassIBlock then false
    else if rx.length < rxHdrSkip pcb then false
    else pcb &&& blockNumMask == expectedBlock &&& blockNumMask

/-- The INF field of a received I-block: up to the end of the frame, less a CRC that a chained frame
carries. A frame with fewer than two bytes behind the offset has none. -/
def iBlockInf (rx : Frame) (infOff : Nat) (pcb : Byte) : Option Frame :=
  if rx.length < infOff + 2 then none
  else if rx.length - infOff < chainedCrcTailLen pcb rx then none
  else some ((rx.drop infOff).take (rx.length - infOff - chainedCrcTailLen pcb rx))

/-! ### R-blocks -/

/-- The block number of a received R(ACK), or of an R(NAK) when `expectNak` is set. -/
def rxRblockBlock (rx : Frame) (expectNak pcbHasCid : Bool) (cid : Byte) : Option Byte :=
  if rx.length < 1 then none
  else
    let pcb := u8At rx 0
    if rx.length < rxHdrSkip pcb then none
    else if pcb &&& pcbRBlockExpectMask ≠ pcbRBlockBase then none
    else if decide (pcb &&& pcbChainBit ≠ 0) ≠ expectNak then none
    else if pcbHasCid = true ∧ (pcb &&& pcbCidBit = 0 ∨ u8At rx 1 ≠ cid) then none
    else some (pcb &&& blockNumMask)

def rxIsChainAckForBlock (rx : Frame) (blkSent : Byte) (pcbHasCid : Bool) (cid : Byte) : Bool :=
  match rxRblockBlock rx false pcbHasCid cid with
  | none => false
  | some block => block == blkSent &&& blockNumMask

def rxIsChainNakForBlock (rx : Frame) (blkSent : Byte) (pcbHasCid : Bool) (cid : Byte) : Bool :=
  match rxRblockBlock rx true pcbHasCid cid with
  | none => false
  | some block =>
      block == blkSent &&& blockNumMask || block == (blkSent ^^^ blockNumMask) &&& blockNumMask

/-- The R(ACK) for a chained I-block of a response; the caller's buffer holds PCB and CID. -/
def buildChainedAck (blockNum : Byte) (pcbHasCid : Bool) (cid : Byte) : Frame :=
  let pcb := pcbRBlockBase ||| (blockNum &&& blockNumMask)
  if pcbHasCid then [pcb ||| pcbCidBit, cid] else [pcb]

/-! ### The fragments of a command and of a response -/

/-- An I-block of a command, with what the sender has to remember of it. -/
structure IBlockTx where
  wire : Frame
  pcb : Byte
  hdrLen : Nat
  fragLen : Nat
  chainMore : Bool
  deriving DecidableEq, Repr

def iBlockTxHdrLen (pcbHasCid includeNad : Bool) : Nat :=
  1 + (if pcbHasCid then 1 else 0) + (if includeNad then 1 else 0)

def iBlockTxPcb (pcbHasCid includeNad chainMore : Bool) (blockNum : Byte) : Byte :=
  let pcb := pcbIBlockBase ||| (blockNum &&& blockNumMask)
  let pcb := if pcbHasCid then pcb ||| pcbCidBit else pcb
  let pcb := if includeNad then pcb ||| pcbNadBit else pcb
  if chainMore then pcb ||| pcbChainBit else pcb

def buildIBlockTx (txCap : Nat) (apdu : Frame) (apduOff fragCap : Nat) (pcbHasCid : Bool) (cid : Byte)
    (includeNad : Bool) (nad blockNum : Byte) : Option IBlockTx :=
  if apdu.length ≤ apduOff ∨ fragCap = 0 then none
  else
    let remain := apdu.length - apduOff
    let fragLen := if fragCap < remain then fragCap else remain
    let hdrLen := iBlockTxHdrLen pcbHasCid includeNad
    if 0xFFFF < fragLen + hdrLen ∨ txCap < fragLen + hdrLen then none
    else
      let chainMore := decide (fragCap < remain)
      let pcb := iBlockTxPcb pcbHasCid includeNad chainMore blockNum
      let header := pcb :: ((if pcbHasCid then [cid] else []) ++ (if includeNad then [nad] else []))
      some ⟨header ++ (apdu.drop apduOff).take fragLen, pcb, hdrLen, fragLen, chainMore⟩

/-- The answer to an S(WTX): its header and the multiplier with the power-level bits cleared. -/
def buildWtxEcho (wtxCap : Nat) (rx : Frame) (hdrSkip : Nat) : Option Frame :=
  if rx.length < hdrSkip + 1 ∨ wtxCap < hdrSkip + 1 then none
  else
    let wtxm := u8At rx hdrSkip &&& wtxmMask
    if wtxm < 1 ∨ 59 < wtxm then none else some (rx.take hdrSkip ++ [wtxm])

/-- The echo starts with the PCB it answers. -/
theorem buildWtxEcho_pcb {wtxCap : Nat} {rx echo : Frame} {hdrSkip : Nat} (hskip : 1 ≤ hdrSkip)
    (h : buildWtxEcho wtxCap rx hdrSkip = some echo) : u8At echo 0 = u8At rx 0 := by
  unfold buildWtxEcho at h
  split at h
  · cases h
  rename_i hlen
  dsimp only at h
  split at h
  · cases h
  cases h
  cases rx with
  | nil => simp only [List.length_nil] at hlen; omega
  | cons p rest =>
      obtain ⟨n, rfl⟩ := Nat.exists_eq_add_of_le' hskip
      rfl

/-- Append an INF field to the response; `none` when it does not fit, and then nothing is copied. -/
def appendInf (respCap : Nat) (resp inf : Frame) : Option Frame :=
  if 0xFFFF < resp.length + inf.length ∨ respCap < resp.length + inf.length then none
  else some (resp ++ inf)

/-! ### Reading a frame back

The fields of a frame as its PCB declares them, whoever sent it. -/

def isIBlock (f : Frame) : Bool := u8At f 0 &&& pcbClassMask == pcbClassIBlock
def isSWtx (f : Frame) : Bool := u8At f 0 &&& pcbSWtxMask == pcbSWtx
def isChained (f : Frame) : Bool := u8At f 0 &&& pcbChainBit != 0
def blockOf (f : Frame) : Byte := u8At f 0 &&& blockNumMask

/-- An R(ACK) with this block number, with or without a CID. -/
def IsRAck (f : Frame) (block : Byte) : Prop := u8At f 0 &&& 0xF6 = 0xA2 ∧ blockOf f = block

/-- What stands behind the header. -/
def infOf (f : Frame) : Frame := f.drop (rxHdrSkip (u8At f 0))

/-- The CRC a frame carries, if its last two bytes are one. -/
def crcOf (f : Frame) : Frame := if hasCrcASuffix f then f.drop (f.length - 2) else []

/-- The INF field a card put into a frame: between the header and the CRC. -/
def cardInf (f : Frame) : Frame :=
  (f.take (f.length - (crcOf f).length)).drop (rxHdrSkip (u8At f 0))

theorem crcOf_length (f : Frame) : (crcOf f).length = if hasCrcASuffix f then 2 else 0 := by
  unfold crcOf
  split
  · rename_i h
    have hlen : 3 ≤ f.length := by
      by_contra hshort
      rw [hasCrcASuffix, if_pos (by omega)] at h
      cases h
    rw [List.length_drop]
    omega
  · rfl

/-- Read at the end of the header, a frame gives the card's INF field, and the last one its CRC. -/
theorem iBlockInf_eq_cardInf {f inf : Frame}
    (h : iBlockInf f (rxHdrSkip (u8At f 0)) (u8At f 0) = some inf) :
    inf = cardInf f ++ if isChained f then [] else crcOf f := by
  have hcrc := crcOf_length f
  unfold iBlockInf at h
  split at h
  · cases h
  rename_i hlen
  split at h
  · cases h
  cases h
  unfold cardInf chainedCrcTailLen crcOf
  unfold isChained
  by_cases hchain : u8At f 0 &&& pcbChainBit = 0
  · have hflag : (u8At f 0 &&& pcbChainBit != 0) = false := by simpa using hchain
    rw [if_pos (Or.inl hchain), hflag, Nat.sub_zero, List.take_of_length_le (by rw [List.length_drop])]
    by_cases hsuffix : hasCrcASuffix f = true
    · simp only [hsuffix, if_true, Bool.false_eq_true, if_false, List.length_drop]
      rw [List.drop_take, show f.length - (f.length - (f.length - 2)) = f.length - 2 by omega]
      conv_lhs => rw [← List.take_append_drop (f.length - 2 - rxHdrSkip (u8At f 0))
        (f.drop (rxHdrSkip (u8At f 0)))]
      rw [List.drop_drop, show rxHdrSkip (u8At f 0) + (f.length - 2 - rxHdrSkip (u8At f 0)) =
        f.length - 2 by omega]
    · simp only [hsuffix, Bool.false_eq_true, if_false, List.length_nil, Nat.sub_zero,
        List.take_length, List.append_nil]
  · have hflag : (u8At f 0 &&& pcbChainBit != 0) = true := by simpa using hchain
    rw [hflag, if_pos rfl, List.append_nil]
    by_cases hsuffix : hasCrcASuffix f = true
    · have htail : ¬(u8At f 0 &&& pcbChainBit = 0 ∨ hasCrcASuffix f = false) := by
        rintro (h | h)
        · exact hchain h
        · rw [hsuffix] at h
          cases h
      rw [if_neg htail, if_pos hsuffix, List.length_drop, List.drop_take,
        show f.length - (f.length - (f.length - 2)) = f.length - 2 by omega, crcLen,
        show f.length - rxHdrSkip (u8At f 0) - 2 = f.length - 2 - rxHdrSkip (u8At f 0) by omega]
    · rw [if_pos (Or.inr (by simpa using hsuffix)), if_neg hsuffix, List.length_nil, Nat.sub_zero,
        Nat.sub_zero, List.take_length, List.take_of_length_le (by rw [List.length_drop])]

theorem not_isIBlock_of_rxRblockBlock {rx : Frame} {expectNak pcbHasCid : Bool} {cid block : Byte}
    (h : rxRblockBlock rx expectNak pcbHasCid cid = some block) : isIBlock rx = false := by
  have hpcb : ∀ p : Byte, p &&& pcbRBlockExpectMask = pcbRBlockBase →
      (p &&& pcbClassMask == pcbClassIBlock) = false := by decide
  unfold rxRblockBlock at h
  split at h
  · cases h
  dsimp only at h
  split at h
  · cases h
  split at h
  · cases h
  rename_i hbase
  exact hpcb _ (not_not.mp hbase)

theorem isIBlock_of_isSWtx {f : Frame} (h : isSWtx f = true) : isIBlock f = false := by
  have hclass : ∀ p : Byte, (p &&& pcbSWtxMask == pcbSWtx) = true →
      (p &&& pcbClassMask == pcbClassIBlock) = false := by decide
  exact hclass _ h

/-- A built PCB is an I-block's, and says what it was built from. -/
theorem iBlockTxPcb_fields (pcbHasCid includeNad chainMore : Bool) (blockNum : Byte) :
    let pcb := iBlockTxPcb pcbHasCid includeNad chainMore blockNum
    (pcb &&& pcbClassMask == pcbClassIBlock) = true ∧ (pcb &&& pcbChainBit != 0) = chainMore ∧
      pcb &&& blockNumMask = blockNum &&& blockNumMask ∧
      rxHdrSkip pcb = iBlockTxHdrLen pcbHasCid includeNad ∧
      (pcb &&& pcbCidBit != 0) = pcbHasCid ∧ (pcb &&& pcbNadBit != 0) = includeNad ∧
      (pcb &&& pcbSWtxMask == pcbSWtx) = false := by
  have hbit : ∀ b : Byte, b &&& blockNumMask = 0 ∨ b &&& blockNumMask = 1 := by decide
  unfold iBlockTxPcb
  rcases hbit blockNum with h | h <;> rw [h] <;>
    cases pcbHasCid <;> cases includeNad <;> cases chainMore <;> decide

/-- What a built fragment is: an I-block with the caller's number over the next bytes of the APDU,
chained when bytes are left over. -/
theorem buildIBlockTx_spec {txCap : Nat} {apdu : Frame} {apduOff fragCap : Nat} {pcbHasCid : Bool}
    {cid : Byte} {includeNad : Bool} {nad blockNum : Byte} {b : IBlockTx}
    (h : buildIBlockTx txCap apdu apduOff fragCap pcbHasCid cid includeNad nad blockNum = some b) :
    isIBlock b.wire = true ∧ isChained b.wire = b.chainMore ∧
      blockOf b.wire = blockNum &&& blockNumMask ∧
      infOf b.wire = (apdu.drop apduOff).take b.fragLen ∧
      apduOff + b.fragLen ≤ apdu.length ∧ 0 < b.fragLen ∧
      (b.chainMore = true ↔ apduOff + b.fragLen < apdu.length) := by
  unfold buildIBlockTx at h
  split at h
  · cases h
  rename_i hoff
  obtain ⟨fragLen, hfrag⟩ : ∃ n, n = if fragCap < apdu.length - apduOff then fragCap
      else apdu.length - apduOff := ⟨_, rfl⟩
  dsimp only at h
  rw [← hfrag] at h
  split at h
  · cases h
  cases h
  obtain ⟨hI, hchain, hblock, hhdr, -⟩ := iBlockTxPcb_fields pcbHasCid includeNad
    (decide (fragCap < apdu.length - apduOff)) blockNum
  refine ⟨hI, hchain, hblock, ?_, ?_, ?_, ?_⟩
  · -- the header written is as long as the PCB declares
    simp only [infOf, u8At, List.cons_append, List.getD_cons_zero, hhdr]
    cases pcbHasCid <;> cases includeNad <;> rfl
  all_goals
    simp only [decide_eq_true_eq]
    split at hfrag <;> omega

/-- The loop's acknowledgement is an R(ACK) with the number of the fragment. -/
theorem isRAck_of_rxIsChainAckForBlock {rx : Frame} {blkSent : Byte} {pcbHasCid : Bool} {cid : Byte}
    (h : rxIsChainAckForBlock rx blkSent pcbHasCid cid = true) :
    IsRAck rx (blkSent &&& blockNumMask) := by
  have hpcb : ∀ p : Byte, p &&& pcbRBlockExpectMask = pcbRBlockBase → p &&& pcbChainBit = 0 →
      p &&& 0xF6 = 0xA2 := by decide
  unfold rxIsChainAckForBlock rxRblockBlock at h
  split at h
  · cases h
  rename_i block heq
  split at heq
  · cases heq
  dsimp only at heq
  split at heq
  · cases heq
  split at heq
  · cases heq
  rename_i hbase
  split at heq
  · cases heq
  rename_i hchain
  split at heq
  · cases heq
  · cases heq
    refine ⟨hpcb _ (not_not.mp hbase) ?_, beq_iff_eq.mp h⟩
    simpa using hchain

/-! ### Timing -/

/-- INF bytes a command fragment may hold: the frame size less header and EDC, at most 48. -/
def apduChunkBudget (picFrameMax txHdrLen : Nat) : Nat :=
  if picFrameMax ≤ txHdrLen + 2 then 0 else min (picFrameMax - (txHdrLen + 2)) 48

def linkResponseTimeoutMs (fwtUs : Nat) : Nat :=
  min (max ((fwtUs + 999) / 1000 + 30) 80) 5000

def wtxResponseTimeoutMs (fwtUs : Nat) (rx : Frame) (hdrSkip : Nat) : Nat :=
  let wtxm := if hdrSkip < rx.length then (u8At rx hdrSkip &&& wtxmMask).toNat else 1
  let wtxm := if wtxm < 1 ∨ 59 < wtxm then 1 else wtxm
  min (max ((fwtUs + 999) / 1000 * wtxm + 30) 80) 5000

end IsoDep
end NeroReader
