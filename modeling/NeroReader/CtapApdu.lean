import NeroReader.HostApdu
import NeroReader.NdefTlv

/-!
CTAP commands in APDUs. `nfc_ctap_pack_cbor_apdu` puts a command byte and its CBOR body into a short or an
extended command APDU, `nfc_ctap_apdu_command` reads the command byte of such an APDU. Both are measured against
the layout of a command APDU with a data field.
-/

namespace NeroReader.CtapApdu

open IsoDep HostApdu
open Ndef (storeAt copyBytes spanOk u16)

def ctapP1GetresponseSupported : Byte := 0x80
def shortLcMax : Nat := 255
def apduPayloadHdrShort : Nat := 6
def apduPayloadHdrExtended : Nat := 9
def apduShortHdrLen : Nat := 6
def apduExtendedHdrLen : Nat := 8

/-- What a packer left: its verdict, the buffer and the length it reports. -/
structure PackedApdu where
  ok : Bool
  apdu : Frame
  apduLen : Nat
  deriving DecidableEq, Repr

/-- `nfc_ctap_pack_cbor_apdu` into a buffer whose length is its capacity. -/
def packCborApdu (ctapCmd : Byte) (cbor : Frame) (forceExtended : Bool) (apdu : Frame) : PackedApdu :=
  if 0xFFFF - 1 < cbor.length then ⟨false, apdu, 0⟩
  else
    let payloadLen := u16 (cbor.length + 1)
    let short := !forceExtended && decide (payloadLen ≤ shortLcMax)
    if apdu.length < payloadLen + if short then apduPayloadHdrShort else apduPayloadHdrExtended then ⟨false, apdu, 0⟩
    else
      let header := storeAt apdu 0 [ctapCla, ctapInsMsg, ctapP1GetresponseSupported, 0x00]
      if short then
        match copyBytes (storeAt header 4 [BitVec.ofNat 8 payloadLen, ctapCmd]) apduShortHdrLen cbor with
        | none => ⟨false, storeAt header 4 [BitVec.ofNat 8 payloadLen, ctapCmd], 0⟩
        | some body =>
            ⟨true, storeAt body (apduShortHdrLen + cbor.length) [0x00], u16 (apduShortHdrLen + cbor.length + 1)⟩
      else
        let lc := [0x00, BitVec.ofNat 8 (payloadLen / 256), BitVec.ofNat 8 (payloadLen % 256), ctapCmd]
        match copyBytes (storeAt header 4 lc) apduExtendedHdrLen cbor with
        | none => ⟨false, storeAt header 4 lc, 0⟩
        | some body =>
            ⟨true, storeAt body (apduExtendedHdrLen + cbor.length) [0x00, 0x00],
              u16 (apduExtendedHdrLen + cbor.length + 2)⟩

/-! ### Command APDUs -/

/-- A command APDU with a data field: four bytes of header, the length of the data in one byte or in three, the
data, and an Le field or none. -/
inductive CommandApdu : Frame → Frame → Prop where
  | short {header data le : Frame} {lc : Byte} (hheader : header.length = 4) (hlc : lc ≠ 0)
      (hdata : data.length = lc.toNat) (hle : le.length ≤ 1) : CommandApdu (header ++ lc :: (data ++ le)) data
  | extended {header data le : Frame} {hi lo : Byte} (hheader : header.length = 4) (hne : data ≠ [])
      (hdata : data.length = 256 * hi.toNat + lo.toNat) (hle : le = [] ∨ le.length = 2) :
      CommandApdu (header ++ 0x00 :: hi :: lo :: (data ++ le)) data

theorem CommandApdu.data_ne_nil {apdu data : Frame} (h : CommandApdu apdu data) : data ≠ [] := by
  cases h with
  | short hheader hlc hdata hle =>
      rintro rfl
      exact hlc (BitVec.eq_of_toNat_eq hdata.symm)
  | extended hheader hne hdata hle => exact hne

/-- The data fits one length byte, and the caller does not insist on three. -/
def IsShort (cbor : Frame) (forceExtended : Bool) : Prop := forceExtended = false ∧ cbor.length + 1 ≤ shortLcMax

instance (cbor : Frame) (forceExtended : Bool) : Decidable (IsShort cbor forceExtended) :=
  inferInstanceAs (Decidable (_ ∧ _))

/-- The bytes in front of the command byte. -/
def ctapHeader : Frame := [ctapCla, ctapInsMsg, ctapP1GetresponseSupported, 0x00]

/-- The complete APDU of a CTAP command. -/
def ctapApdu (ctapCmd : Byte) (cbor : Frame) (forceExtended : Bool) : Frame :=
  if IsShort cbor forceExtended then
    ctapHeader ++ BitVec.ofNat 8 (cbor.length + 1) :: (ctapCmd :: cbor ++ [0x00])
  else
    ctapHeader ++ 0x00 :: BitVec.ofNat 8 ((cbor.length + 1) / 256) :: BitVec.ofNat 8 ((cbor.length + 1) % 256) ::
      (ctapCmd :: cbor ++ [0x00, 0x00])

theorem isShort_test (cbor : Frame) (forceExtended : Bool) :
    (!forceExtended && decide (cbor.length + 1 ≤ shortLcMax)) = decide (IsShort cbor forceExtended) := by
  cases forceExtended <;> simp [IsShort]

theorem ctapApdu_length (ctapCmd : Byte) (cbor : Frame) (forceExtended : Bool) :
    (ctapApdu ctapCmd cbor forceExtended).length =
      cbor.length + 1 + if IsShort cbor forceExtended then apduPayloadHdrShort else apduPayloadHdrExtended := by
  rw [ctapApdu]
  split <;> simp [ctapHeader, apduPayloadHdrShort, apduPayloadHdrExtended]

/-- Every body the length fields can represent makes a command APDU. -/
theorem ctapApdu_command (ctapCmd : Byte) {cbor : Frame} (forceExtended : Bool) (h : cbor.length + 1 ≤ 0xFFFF) :
    CommandApdu (ctapApdu ctapCmd cbor forceExtended) (ctapCmd :: cbor) := by
  rw [ctapApdu]
  split
  · rename_i hshort
    have hlen := hshort.2
    rw [shortLcMax] at hlen
    have hlc : (BitVec.ofNat 8 (cbor.length + 1)).toNat = cbor.length + 1 := Nat.mod_eq_of_lt (by omega)
    refine .short rfl ?_ hlc.symm (Nat.le_refl 1)
    intro hzero
    rw [hzero] at hlc
    exact absurd hlc (Nat.zero_ne_add_one _)
  · refine .extended rfl (List.cons_ne_nil _ _) ?_ (Or.inr rfl)
    rw [BitVec.toNat_ofNat, BitVec.toNat_ofNat, List.length_cons]
    omega

/-! ### The recogniser -/

/-- **What the recogniser accepts** is a command APDU with a data field, and the command is its first byte. -/
theorem command_of_ctapApduCommand {apdu : Frame} {cmd : Byte} (h : ctapApduCommand apdu = some cmd) :
    ∃ data, CommandApdu apdu data ∧ data.head? = some cmd := by
  rw [ctapApduCommand, Option.ite_none_left_eq_some, Option.ite_none_left_eq_some] at h
  obtain ⟨hlen, -, h⟩ := h
  obtain ⟨cla, ins, p1, p2, lc, rest, rfl⟩ : ∃ cla ins p1 p2 lc rest, apdu = cla :: ins :: p1 :: p2 :: lc :: rest := by
    match apdu, hlen with
    | cla :: ins :: p1 :: p2 :: lc :: rest, _ => exact ⟨cla, ins, p1, p2, lc, rest, rfl⟩
    | [], hlen | [_], hlen | [_, _], hlen | [_, _, _], hlen | [_, _, _, _], hlen => exact absurd (by simp) hlen
  split at h
  · rename_i hlc
    rw [Option.ite_none_left_eq_some] at h
    obtain ⟨hbody, hcmd⟩ := h
    simp only [u8At_cons_succ, u8At_cons_zero] at hbody hcmd hlc
    simp only [apduLcBodyOk, apduLcBodyWithLeOk, beq_eq_false_iff_ne, List.length_cons] at hbody
    have hpos : 0 < lc.toNat := Nat.pos_of_ne_zero fun hzero => hlc (BitVec.eq_of_toNat_eq hzero)
    refine ⟨rest.take lc.toNat, ?_, ?_⟩
    · have hcommand := @CommandApdu.short [cla, ins, p1, p2] (rest.take lc.toNat) (rest.drop lc.toNat) lc rfl hlc
        (by rw [List.length_take]; omega) (by rw [List.length_drop]; omega)
      rwa [List.take_append_drop] at hcommand
    · cases rest with
      | nil =>
          simp only [List.length_nil] at hbody
          omega
      | cons first tail =>
          rw [List.head?_take, if_neg (Nat.ne_of_gt hpos)]
          exact hcmd
  · rename_i hlc
    rw [Option.ite_none_left_eq_some, Option.ite_none_left_eq_some] at h
    obtain ⟨hlen, hbody, hcmd⟩ := h
    obtain ⟨hi, lo, first, tail, rfl⟩ : ∃ hi lo first tail, rest = hi :: lo :: first :: tail := by
      match rest, hlen with
      | hi :: lo :: first :: tail, _ => exact ⟨hi, lo, first, tail, rfl⟩
      | [], hlen | [_], hlen | [_, _], hlen => exact absurd (by simp) hlen
    simp only [u8At_cons_succ, u8At_cons_zero, List.length_cons, not_or, not_and_or, not_not] at hbody hcmd
    have hzero : lc = 0x00 := not_not.mp hlc
    rw [hzero]
    refine ⟨(first :: tail).take (256 * hi.toNat + lo.toNat), ?_, ?_⟩
    · have hcommand := @CommandApdu.extended [cla, ins, p1, p2] ((first :: tail).take (256 * hi.toNat + lo.toNat))
        ((first :: tail).drop (256 * hi.toNat + lo.toNat)) hi lo rfl ?_ ?_ ?_
      · rwa [List.take_append_drop] at hcommand
      · intro hnil
        have hlength := congrArg List.length hnil
        rw [List.length_take, List.length_cons, List.length_nil] at hlength
        omega
      · rw [List.length_take, List.length_cons]
        omega
      · rw [List.length_drop, List.length_cons]
        rcases hbody.2 with hno | hle
        · exact Or.inl (List.drop_eq_nil_of_le (by rw [List.length_cons]; omega))
        · exact Or.inr (by omega)
    · rw [List.head?_take, if_neg hbody.1]
      exact hcmd

/-- A command APDU under the header of a CTAP command is recognised. -/
theorem ctapApduCommand_of_command {rest data : Frame} (h : CommandApdu (ctapHeader ++ rest) data) :
    ctapApduCommand (ctapHeader ++ rest) = data.head? := by
  obtain ⟨first, tail, rfl⟩ := List.exists_cons_of_ne_nil h.data_ne_nil
  have hheader : ∀ rest, ¬(u8At (ctapHeader ++ rest) 0 ≠ ctapCla ∨ u8At (ctapHeader ++ rest) 1 ≠ ctapInsMsg ∨
      u8At (ctapHeader ++ rest) 2 &&& p1IgnoreMsbMask ≠ 0 ∨ u8At (ctapHeader ++ rest) 3 ≠ 0) := by
    intro rest
    simp only [ctapHeader, List.cons_append, u8At_cons_succ, u8At_cons_zero]
    decide
  generalize happ : ctapHeader ++ rest = apdu at h
  cases h with
  | @short header data le lc hlen hlc hdata hle =>
      obtain ⟨rfl, rfl⟩ := List.append_inj happ hlen.symm
      have hlength : (ctapHeader ++ lc :: (first :: tail ++ le)).length = 5 + lc.toNat + le.length := by
        rw [← hdata]
        simp [ctapHeader]
        omega
      have hbody : ¬(apduLcBodyOk (ctapHeader ++ lc :: (first :: tail ++ le)) lc = false ∧
          apduLcBodyWithLeOk (ctapHeader ++ lc :: (first :: tail ++ le)) lc = false) := by
        rw [apduLcBodyOk, apduLcBodyWithLeOk, hlength, beq_eq_false_iff_ne, beq_eq_false_iff_ne]
        omega
      rw [ctapApduCommand, if_neg (by omega), if_neg (hheader _)]
      exact (if_pos hlc).trans (if_neg hbody)
  | @extended header data le hi lo hlen hne hdata hle =>
      obtain ⟨rfl, rfl⟩ := List.append_inj happ hlen.symm
      have hlength : (ctapHeader ++ 0x00 :: hi :: lo :: (first :: tail ++ le)).length =
          7 + (256 * hi.toNat + lo.toNat) + le.length := by
        rw [← hdata]
        simp [ctapHeader]
        omega
      have hle : le.length = 0 ∨ le.length = 2 := hle.imp_left fun hnil => congrArg List.length hnil
      rw [List.length_cons] at hdata
      have hbody : ¬(256 * hi.toNat + lo.toNat = 0 ∨
          (ctapHeader ++ 0x00 :: hi :: lo :: (first :: tail ++ le)).length ≠ 7 + (256 * hi.toNat + lo.toNat) ∧
            (ctapHeader ++ 0x00 :: hi :: lo :: (first :: tail ++ le)).length ≠ 7 +
              (256 * hi.toNat + lo.toNat) + 2) := by
        rw [hlength]
        omega
      rw [ctapApduCommand, if_neg (by omega), if_neg (hheader _), if_neg (by simp [ctapHeader]), if_neg (by omega)]
      exact if_neg hbody

/-! ### The packer -/

/-- What the stores of a packer leave: the header, the length field with the command byte, the body and the Le
field, one behind the other. -/
theorem stores_eq (header lc body le apdu : Frame)
    (hfits : header.length + lc.length + body.length ≤ apdu.length) :
    ∃ out, copyBytes (storeAt (storeAt apdu 0 header) header.length lc) (header.length + lc.length) body = some out ∧
      storeAt out (header.length + lc.length + body.length) le =
        header ++ lc ++ body ++ le ++ apdu.drop (header.length + lc.length + body.length + le.length) := by
  have hheader : storeAt apdu 0 header = header ++ apdu.drop header.length := Ndef.storeAt_append [] header apdu
  have hlc : storeAt (storeAt apdu 0 header) header.length lc =
      header ++ lc ++ apdu.drop (header.length + lc.length) := by
    rw [hheader, Ndef.storeAt_append, List.drop_drop]
  have hspan : spanOk (header.length + lc.length) body.length
      (header ++ lc ++ apdu.drop (header.length + lc.length)).length = true := by
    rw [spanOk, decide_eq_true_eq, List.length_append, List.length_append, List.length_drop]
    omega
  refine ⟨header ++ lc ++ body ++ apdu.drop (header.length + lc.length + body.length), ?_, ?_⟩
  · rw [hlc, copyBytes, if_pos hspan, ← List.length_append, Ndef.storeAt_append, List.drop_drop]
  · rw [← List.length_append, ← List.length_append, Ndef.storeAt_append, List.drop_drop]

/-- A buffer that takes the APDU holds it, and behind it what it held before. -/
theorem packCborApdu_of_fits {ctapCmd : Byte} {cbor apdu : Frame} {forceExtended : Bool} (hcap : apdu.length ≤ 0xFFFF)
    (hfits : (ctapApdu ctapCmd cbor forceExtended).length ≤ apdu.length) :
    packCborApdu ctapCmd cbor forceExtended apdu =
      ⟨true, ctapApdu ctapCmd cbor forceExtended ++ apdu.drop (ctapApdu ctapCmd cbor forceExtended).length,
        (ctapApdu ctapCmd cbor forceExtended).length⟩ := by
  have hlen := ctapApdu_length ctapCmd cbor forceExtended
  have hpayload : u16 (cbor.length + 1) = cbor.length + 1 := Ndef.u16_of_le (by omega)
  rw [packCborApdu, if_neg (by omega)]
  simp only [hpayload, isShort_test, decide_eq_true_eq]
  rw [if_neg (by omega)]
  by_cases hshort : IsShort cbor forceExtended
  · rw [if_pos hshort, apduPayloadHdrShort] at hlen
    obtain ⟨out, hcopy, hle⟩ := stores_eq ctapHeader [BitVec.ofNat 8 (cbor.length + 1), ctapCmd] cbor [0x00] apdu
      (show 4 + 2 + cbor.length ≤ apdu.length by omega)
    change copyBytes (storeAt (storeAt apdu 0 ctapHeader) 4 _) apduShortHdrLen cbor = some out at hcopy
    change storeAt out (apduShortHdrLen + cbor.length) [0x00] = _ ++ apdu.drop (6 + cbor.length + 1) at hle
    have hsize : apduShortHdrLen + cbor.length + 1 = cbor.length + 1 + 6 := by
      rw [apduShortHdrLen]
      omega
    rw [if_pos hshort, ← ctapHeader, hcopy]
    dsimp only
    rw [hle, hsize, Ndef.u16_of_le (by omega), hlen, ctapApdu, if_pos hshort,
      show 6 + cbor.length + 1 = cbor.length + 1 + 6 by omega]
    simp
  · rw [if_neg hshort, apduPayloadHdrExtended] at hlen
    obtain ⟨out, hcopy, hle⟩ := stores_eq ctapHeader
      [0x00, BitVec.ofNat 8 ((cbor.length + 1) / 256), BitVec.ofNat 8 ((cbor.length + 1) % 256), ctapCmd] cbor
      [0x00, 0x00] apdu (show 4 + 4 + cbor.length ≤ apdu.length by omega)
    change copyBytes (storeAt (storeAt apdu 0 ctapHeader) 4 _) apduExtendedHdrLen cbor = some out at hcopy
    change storeAt out (apduExtendedHdrLen + cbor.length) [0x00, 0x00] = _ ++ apdu.drop (8 + cbor.length + 2) at hle
    have hsize : apduExtendedHdrLen + cbor.length + 2 = cbor.length + 1 + 9 := by
      rw [apduExtendedHdrLen]
      omega
    rw [if_neg hshort, ← ctapHeader, hcopy]
    dsimp only
    rw [hle, hsize, Ndef.u16_of_le (by omega), hlen, ctapApdu, if_neg hshort,
      show 8 + cbor.length + 2 = cbor.length + 1 + 9 by omega]
    simp

theorem packCborApdu_ok {ctapCmd : Byte} {cbor apdu : Frame} {forceExtended : Bool}
    (h : (packCborApdu ctapCmd cbor forceExtended apdu).ok = true) :
    cbor.length + 1 ≤ 0xFFFF ∧ (ctapApdu ctapCmd cbor forceExtended).length ≤ apdu.length := by
  have hlen := ctapApdu_length ctapCmd cbor forceExtended
  rw [packCborApdu] at h
  split at h
  · cases h
  rename_i hrep
  have hpayload : u16 (cbor.length + 1) = cbor.length + 1 := Ndef.u16_of_le (by omega)
  simp only [hpayload, isShort_test, decide_eq_true_eq] at h
  by_cases hfits :
    apdu.length < cbor.length + 1 + if IsShort cbor forceExtended then apduPayloadHdrShort else apduPayloadHdrExtended
  · rw [if_pos hfits] at h
    cases h
  · omega

/-- **CTAP packing and recognition.** A body is packed exactly when its complete APDU fits the buffer and its
length is one the length field can hold; what is packed is a command APDU with the command byte and the body in
its data field, nothing behind it is written, and the recogniser reads the command byte off it. Every APDU the
recogniser accepts has a data field as long as its Lc says, and starts with the command it reports. -/
theorem ctap_pack_recognise (ctapCmd : Byte) (cbor apdu : Frame) (forceExtended : Bool) (hcap : apdu.length ≤ 0xFFFF) :
    ((packCborApdu ctapCmd cbor forceExtended apdu).ok = true ↔
      cbor.length + 1 ≤ 0xFFFF ∧ (ctapApdu ctapCmd cbor forceExtended).length ≤ apdu.length) ∧
    (∀ packed, packCborApdu ctapCmd cbor forceExtended apdu = packed → packed.ok = true →
      packed.apdu = ctapApdu ctapCmd cbor forceExtended ++ apdu.drop packed.apduLen ∧
      packed.apduLen = (ctapApdu ctapCmd cbor forceExtended).length ∧
      CommandApdu (packed.apdu.take packed.apduLen) (ctapCmd :: cbor) ∧
      ctapApduCommand (packed.apdu.take packed.apduLen) = some ctapCmd) ∧
    ∀ any cmd, ctapApduCommand any = some cmd → ∃ data, CommandApdu any data ∧ data.head? = some cmd := by
  refine ⟨⟨packCborApdu_ok, fun h => ?_⟩, ?_, fun any cmd => command_of_ctapApduCommand⟩
  · rw [packCborApdu_of_fits hcap h.2]
  · rintro packed rfl hok
    obtain ⟨hrep, hfits⟩ := packCborApdu_ok hok
    have hcommand := ctapApdu_command ctapCmd forceExtended hrep
    rw [packCborApdu_of_fits hcap hfits]
    dsimp only
    rw [List.take_left]
    refine ⟨rfl, rfl, hcommand, ?_⟩
    obtain ⟨rest, hrest⟩ : ∃ rest, ctapApdu ctapCmd cbor forceExtended = ctapHeader ++ rest := by
      rw [ctapApdu]
      split <;> exact ⟨_, rfl⟩
    rw [hrest] at hcommand ⊢
    exact ctapApduCommand_of_command hcommand

theorem ctap_pack_recognise_short :
    (packCborApdu 0x04 [0xA1, 0x01, 0x02] false (List.replicate 32 0)).ok = true :=
  (ctap_pack_recognise 0x04 [0xA1, 0x01, 0x02] (List.replicate 32 0) false (by decide)).1.mpr (by decide)

end NeroReader.CtapApdu
