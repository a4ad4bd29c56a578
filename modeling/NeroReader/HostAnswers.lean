import NeroReader.HostDispatch

/-!
What a host gets for its payload. Every answer ends in a status word of the reader or is a response of the card, but
for the firmware version of the ACR122U and for payloads cut off in front of what their handler needs, which get no
bytes at all (`dispatch_responds_iff`).
-/

namespace NeroReader.HostDispatch

open IsoDep HostApdu SecurityKey Emulation Tags
open Storage (TagKind appendStatus appendSuccessStatus swFuncNotSupported swVerificationFailed)
open Ccid (claProprietary insReadBinary insUpdateBinary swGeneralError swInsNotSupported swClassNotSupported
  swCommandNotAllowed)

/-! ### Status words -/

/-- The status words the reader answers with by itself. -/
def statusWords : List Frame :=
  [swSuccess, swGeneralError, swInsNotSupported, swClassNotSupported, swWrongLengthAlt, swFuncNotSupported,
    swVerificationFailed, Storage.swConditionsNotSatisfied, Storage.swWrongData, Storage.swWrongP1P2,
    swCommandNotAllowed, abortSw]

def EndsInStatus (rsp : Frame) : Prop := ∃ data, ∃ sw ∈ statusWords, rsp = data ++ sw

theorem statusWords_length : ∀ sw ∈ statusWords, sw.length = 2 := by decide

theorem endsInStatus_append (data : Frame) {sw : Frame} (h : sw ∈ statusWords) : EndsInStatus (data ++ sw) :=
  ⟨data, sw, h, rfl⟩

theorem EndsInStatus.length_le {rsp : Frame} (h : EndsInStatus rsp) : 2 ≤ rsp.length := by
  obtain ⟨data, sw, hsw, rfl⟩ := h
  rw [List.length_append, statusWords_length sw hsw]
  omega

section Answers

variable {rspCap : Nat} {sw data : Frame}

theorem appendStatus_ends (hcap : 2 ≤ rspCap) (hsw : sw ∈ statusWords) : EndsInStatus (appendStatus rspCap sw) := by
  rw [appendStatus, if_neg (Nat.not_lt.mpr hcap)]
  exact endsInStatus_append [] hsw

theorem appendSuccessStatus_ends (hfits : data.length + 2 ≤ rspCap) :
    EndsInStatus (appendSuccessStatus data rspCap) := by
  rw [appendSuccessStatus, if_neg (Nat.not_lt.mpr hfits)]
  exact endsInStatus_append data (by decide : Storage.swSuccess ∈ statusWords)

/-- The answer of a handler that may leave a payload to the next one. -/
def EndsOrEmpty (rsp : Frame) : Prop := rsp = [] ∨ EndsInStatus rsp

theorem notSupported_ends (hcap : 2 ≤ rspCap) : EndsInStatus (notSupported rspCap) :=
  appendStatus_ends hcap (by decide)

/-- Data that fit are answered with 9000, and data that only just do not with no bytes. -/
theorem copied_ends {failure : Frame} (hcap : 2 ≤ rspCap) (hfailure : failure ∈ statusWords) :
    EndsOrEmpty (copied failure data rspCap) := by
  rw [copied, appendSuccessStatus]
  split
  · exact Or.inr (appendStatus_ends hcap hfailure)
  split
  · exact Or.inl rfl
  · exact Or.inr (endsInStatus_append data (by decide : Storage.swSuccess ∈ statusWords))

/-! ### GET DATA -/

section GetData

variable (r : HostReader) (p1 : Byte)

theorem getDataContactless_ends (hcap : 2 ≤ rspCap) : EndsOrEmpty (getDataContactless r p1 rspCap) := by
  have hnot : EndsOrEmpty (notSupported rspCap) := Or.inr (notSupported_ends hcap)
  rw [getDataContactless]
  split
  · split
    · exact copied_ends hcap (by decide)
    · cases r.typea with
      | none => exact hnot
      | some typea => exact copied_ends hcap (by decide)
  split
  · cases r.typea with
    | none => exact hnot
    | some typea =>
        dsimp only
        split
        · exact copied_ends hcap (by decide)
        · exact hnot
  split
  · cases r.typea with
    | none => exact hnot
    | some typea =>
        dsimp only
        split
        · exact hnot
        next hfits => exact Or.inr (appendSuccessStatus_ends (Nat.le_of_not_lt hfits))
  split
  · cases r.typea with
    | none => exact hnot
    | some typea =>
        dsimp only
        split
        · exact hnot
        next hfits => exact Or.inr (appendSuccessStatus_ends (Nat.le_of_not_lt (not_or.mp hfits).2))
  · exact Or.inl rfl

theorem getDataType2_ends (hcap : 2 ≤ rspCap) : EndsOrEmpty (getDataType2 r p1 rspCap) := by
  have hnot : EndsOrEmpty (notSupported rspCap) := Or.inr (notSupported_ends hcap)
  rw [getDataType2]
  split
  · cases r.tag.type2 with
    | none => exact hnot
    | some type2 =>
        dsimp only
        split
        · exact hnot
        cases ntagVersion r with
        | none => exact hnot
        | some version => exact copied_ends hcap (by decide)
  split
  · split
    · exact hnot
    cases r.type2Transceive [ntagCmdReadSig, 0x00] ntagSigReplyLen with
    | none => exact hnot
    | some signature =>
        dsimp only
        split
        · exact hnot
        · exact copied_ends hcap (by decide)
  split
  · cases r.tag.type2 with
    | none => exact hnot
    | some type2 =>
        dsimp only
        split
        · exact hnot
        · exact copied_ends hcap (by decide)
  split
  · split
    · exact hnot
    next hguard =>
      have hfits : getDataAuth0RspLen + 2 ≤ rspCap := Nat.le_of_not_lt (not_or.mp (not_or.mp hguard).2).2
      cases ntagVersion r with
      | none => exact hnot
      | some version =>
          dsimp only
          split
          · exact hnot
          cases ntagReadPage r.transceive (BitVec.ofNat 8 (version.2 + ntagAuth0PageOffset)) with
          | none => exact hnot
          | some cfg =>
              dsimp only
              split
              · exact hnot
              · exact Or.inr (appendSuccessStatus_ends hfits)
  · exact Or.inl rfl

theorem getDataType45_ends (source : Frame → Prop) (hcap : 2 ≤ rspCap) :
    (getDataType45 r p1 rspCap).Gives source EndsOrEmpty := by
  have hnot : EndsOrEmpty (notSupported rspCap) := Or.inr (notSupported_ends hcap)
  rw [getDataType45]
  split
  · refine Relay.gives_pure ?_
    split
    · exact hnot
    · exact copied_ends hcap (by decide)
  split
  · refine Relay.gives_bind (Relay.gives_trivial _) fun info _ => ?_
    cases info with
    | none => exact Relay.gives_pure hnot
    | some cc => exact Relay.gives_pure (copied_ends hcap (by decide))
  split
  · cases r.tag.type5 with
    | none => exact Relay.gives_pure hnot
    | some type5 =>
        refine Relay.gives_pure ?_
        split
        · exact hnot
        · exact copied_ends hcap (by decide)
  · exact Relay.gives_pure (Or.inl rfl)

/-- A GET DATA of five bytes or more is answered. -/
theorem handleGetDataApdu_ends (source : Frame → Prop) {apdu : Frame} (hlen : 5 ≤ apdu.length) (hcap : 2 ≤ rspCap) :
    (handleGetDataApdu r apdu rspCap).Gives source EndsInStatus := by
  rw [handleGetDataApdu, if_neg (by omega)]
  split
  · exact Relay.gives_pure (appendStatus_ends hcap (by decide))
  split
  · exact Relay.gives_pure (notSupported_ends hcap)
  dsimp only
  split
  next h => exact Relay.gives_pure ((getDataContactless_ends r _ hcap).resolve_left h)
  split
  next h => exact Relay.gives_pure ((getDataType2_ends r _ hcap).resolve_left h)
  refine Relay.gives_bind (getDataType45_ends r _ source hcap) fun type45 hends => Relay.gives_pure ?_
  split
  next h => exact hends.resolve_left h
  · exact notSupported_ends hcap

end GetData

/-! ### READ BINARY, UPDATE BINARY, the escape -/

section Storage

open Storage (readBinaryLen readBinaryLen_le finishRead refused finishWrites)

variable (r : HostReader) (apdu : Frame)

theorem finishRead_ends (m : Storage.Medium) (kind : TagKind) (first len : Nat) (hroom : len + 2 ≤ rspCap) :
    EndsInStatus (finishRead rspCap (m.read kind first len)) := by
  cases hread : m.read kind first len with
  | none => exact appendStatus_ends (Nat.le_trans (Nat.le_add_left 2 len) hroom) (by decide)
  | some data =>
      exact appendSuccessStatus_ends (Nat.le_trans (Nat.add_le_add_right (Storage.Medium.read_length hread) 2) hroom)

theorem handleReadBinaryApdu_ends (hcap : 2 ≤ rspCap) :
    EndsInStatus (Storage.handleReadBinaryApdu r.tag r.medium apdu rspCap) := by
  rw [Storage.handleReadBinaryApdu, if_neg (Nat.not_lt.mpr hcap)]
  cases Storage.readBinaryFields r.tag.kind apdu with
  | none => exact appendStatus_ends hcap (by decide)
  | some fields =>
      obtain ⟨offset, le⟩ := fields
      have hroom := (readBinaryLen_le r.tag offset le hcap).1
      dsimp only
      cases r.tag.kind with
      | none => exact appendStatus_ends hcap (by decide)
      | type4 => exact appendStatus_ends hcap (by decide)
      | type2 =>
          dsimp only
          rw [Storage.readType2]
          split
          · exact appendStatus_ends hcap (by decide)
          split
          · exact appendStatus_ends hcap (by decide)
          split
          · exact appendStatus_ends hcap (by decide)
          split
          · exact appendStatus_ends hcap (by decide)
          exact finishRead_ends r.medium .type2 offset.toNat _ hroom
      | type5 =>
          dsimp only
          rw [Storage.readType5]
          split
          · exact appendStatus_ends hcap (by decide)
          split
          · exact appendStatus_ends hcap (by decide)
          split
          · exact appendStatus_ends hcap (by decide)
          split
          · exact appendStatus_ends hcap (by decide)
          exact finishRead_ends r.medium .type5 offset.toNat _ hroom

section Writes

open Storage (Handled WriteEnv runWrites updateType2 updateType5)

variable {h : Handled}

theorem refused_ends (hcap : 2 ≤ rspCap) (hsw : sw ∈ statusWords) (hh : refused rspCap sw = some h) :
    EndsInStatus h.rsp := by
  obtain rfl := Option.some.inj hh
  exact appendStatus_ends hcap hsw

theorem finishWrites_ends (hcap : 2 ≤ rspCap) (ok : Bool) (writes : List (Storage.UnitWrite × Bool)) :
    EndsInStatus (finishWrites rspCap ok writes).rsp := by
  refine appendStatus_ends hcap ?_
  cases ok <;> decide

theorem runWrites_ends {env : WriteEnv} {unitMax : Nat} {offset : Storage.Word} {lc : Byte} (hcap : 2 ≤ rspCap)
    (hh : runWrites env rspCap unitMax offset lc data = some h) : EndsInStatus h.rsp := by
  rw [runWrites, Option.map_eq_some_iff] at hh
  obtain ⟨done, -, rfl⟩ := hh
  exact finishWrites_ends hcap _ _

theorem updateType2_ends {tag : Storage.Tag} {env : WriteEnv} {offset : Storage.Word} {lc : Byte} (hcap : 2 ≤ rspCap)
    (hh : updateType2 tag env rspCap offset lc data = some h) : EndsInStatus h.rsp := by
  rw [updateType2] at hh
  split at hh
  · exact refused_ends hcap (by decide) hh
  split at hh
  · exact refused_ends hcap (by decide) hh
  split at hh
  · exact refused_ends hcap (by decide) hh
  split at hh
  · exact refused_ends hcap (by decide) hh
  · exact runWrites_ends hcap hh

theorem updateType5_ends {tag : Storage.Tag} {env : WriteEnv} {offset : Storage.Word} {lc : Byte} (hcap : 2 ≤ rspCap)
    (hh : updateType5 tag env rspCap offset lc data = some h) : EndsInStatus h.rsp := by
  rw [updateType5] at hh
  split at hh
  · exact refused_ends hcap (by decide) hh
  split at hh
  · exact refused_ends hcap (by decide) hh
  split at hh
  · exact refused_ends hcap (by decide) hh
  split at hh
  · split at hh
    · exact refused_ends hcap (by decide) hh
    split at hh
    · exact Option.some.inj hh ▸ finishWrites_ends hcap _ _
    · exact Option.some.inj hh ▸ finishWrites_ends hcap _ _
  split at hh
  · exact refused_ends hcap (by decide) hh
  · exact runWrites_ends hcap hh

theorem handleUpdateBinaryApdu_ends (hcap : 2 ≤ rspCap) :
    EndsInStatus (((Storage.handleUpdateBinaryApdu r.tag r.writes apdu rspCap).map (·.rsp)).getD []) := by
  obtain ⟨h, hh, -⟩ := Storage.handleUpdateBinaryApdu_safe r.tag r.writes apdu rspCap
  rw [hh, Option.map_some, Option.getD_some]
  rw [Storage.handleUpdateBinaryApdu, if_neg (Nat.not_lt.mpr hcap)] at hh
  split at hh
  · exact refused_ends hcap (by decide) hh
  split at hh
  · exact refused_ends hcap (by decide) hh
  split at hh
  · exact refused_ends hcap (by decide) hh
  split at hh
  · exact updateType2_ends hcap hh
  · exact updateType5_ends hcap hh
  · exact refused_ends hcap (by decide) hh
  · exact refused_ends hcap (by decide) hh

end Writes

theorem type5Transceive_length {tx : Frame} {rxMax : Nat} (h : r.type5Transceive tx rxMax = some data) :
    data.length ≤ rxMax := by
  rw [HostReader.type5Transceive] at h
  split at h
  · cases h
  split at h
  · obtain rfl := Option.some.inj h
    exact Nat.zero_le _
  dsimp only at h
  split at h
  · obtain rfl := Option.some.inj h
    exact Nat.zero_le _
  · exact (Iso15693.streamDecode_sound h).2.1

/-- A transparent escape of five bytes or more is answered. -/
theorem handleEscapeTransparentApdu_ends (hlen : 5 ≤ apdu.length) (hcap : 2 ≤ rspCap) :
    EndsInStatus (handleEscapeTransparentApdu r apdu rspCap) := by
  rw [handleEscapeTransparentApdu, if_neg (by omega)]
  split
  · exact appendStatus_ends hcap (by decide)
  dsimp only
  split
  · exact appendStatus_ends hcap (by decide)
  split
  · exact appendStatus_ends hcap (by decide)
  split
  · exact appendStatus_ends hcap (by decide)
  next heq =>
    have hdata := type5Transceive_length r heq
    exact appendSuccessStatus_ends (by omega)

/-- What the FF class asks for outside the emulation needs five bytes, or is answered anyway. -/
theorem storageApdu_replies (source : Frame → Prop) (hcap : 2 ≤ rspCap) :
    ((u8At apdu 1 = insGetData ∨ u8At apdu 1 = escapeTransparentIns) ∧ apdu.length < 5 →
        storageApdu r apdu rspCap = return []) ∧
      (¬ ((u8At apdu 1 = insGetData ∨ u8At apdu 1 = escapeTransparentIns) ∧ apdu.length < 5) →
        (storageApdu r apdu rspCap).Gives source EndsInStatus) := by
  rw [storageApdu]
  by_cases hget : u8At apdu 1 = insGetData
  · rw [if_pos hget]
    refine ⟨fun h => ?_, fun h => handleGetDataApdu_ends r source ?_ hcap⟩
    · rw [handleGetDataApdu, if_pos (Or.inl h.2)]
    · exact Nat.le_of_not_lt fun hshort => h ⟨Or.inl hget, hshort⟩
  rw [if_neg hget]
  by_cases hescape : u8At apdu 1 = escapeTransparentIns
  · have hread : u8At apdu 1 ≠ insReadBinary := by
      rw [hescape]
      decide
    have hupdate : u8At apdu 1 ≠ insUpdateBinary := by
      rw [hescape]
      decide
    rw [if_neg hread, if_neg hupdate, if_pos hescape]
    refine ⟨fun h => ?_, fun h => Relay.gives_pure (handleEscapeTransparentApdu_ends r apdu ?_ hcap)⟩
    · rw [handleEscapeTransparentApdu, if_pos (Or.inl h.2)]
    · exact Nat.le_of_not_lt fun hshort => h ⟨Or.inr hescape, hshort⟩
  refine ⟨fun h => absurd h.1 (not_or.mpr ⟨hget, hescape⟩), fun _ => ?_⟩
  split
  · exact Relay.gives_pure (handleReadBinaryApdu_ends r apdu hcap)
  split
  · exact Relay.gives_pure (handleUpdateBinaryApdu_ends r apdu hcap)
  · exact Relay.gives_pure (appendStatus_ends hcap (by decide))

end Storage

/-! ### PN53x commands -/

/-- The command behind its opcode that a PN53x handler needs. -/
def pn53xMinLen (op : Byte) : Nat :=
  if op = pn53xCmdInListPassiveTarget ∨ op = pn53xCmdInDataExchange then 4
  else if op = pn53xCmdInCommunicateThru then 3 else 2

/-- The shortest reply to a PN53x command. -/
def pn53xReplyRoom (op : Byte) : Nat :=
  if op = pn53xCmdGetFirmwareVersion then pn53xFwVersionReplyLen else pn53xStatusReplyLen

/-- There is an answer under this condition, and no bytes otherwise. -/
def Replies (condition : Prop) (rsp : Frame) : Prop := (condition → EndsInStatus rsp) ∧ (¬condition → rsp = [])

section Pn53x

variable {cmd tx : Frame} (r : HostReader)

theorem Replies.congr {p q : Prop} {rsp : Frame} (h : Replies p rsp) (hpq : p ↔ q) : Replies q rsp :=
  ⟨fun hq => h.1 (hpq.mpr hq), fun hq => h.2 fun hp => hq (hpq.mp hp)⟩

theorem buildPn53xStatusReply_replies (responseCode status : Byte) (rspCap : Nat) :
    Replies (5 ≤ rspCap) (buildPn53xStatusReply responseCode status rspCap) := by
  rw [buildPn53xStatusReply, pn53xStatusReplyLen]
  refine ⟨fun h => ?_, fun h => if_pos (Nat.lt_of_not_le h)⟩
  rw [if_neg (Nat.not_lt.mpr h)]
  exact endsInStatus_append _ (by decide)

theorem buildPn53xFwVersion_replies (rspCap : Nat) : Replies (8 ≤ rspCap) (buildPn53xFwVersion rspCap) := by
  rw [buildPn53xFwVersion, pn53xFwVersionReplyLen]
  refine ⟨fun h => ?_, fun h => if_pos (Nat.lt_of_not_le h)⟩
  rw [if_neg (Nat.not_lt.mpr h)]
  exact endsInStatus_append _ (by decide)

theorem handlePn53xListPassive_replies (env : Env) (cmd : Frame) (rspCap : Nat) :
    Replies (4 ≤ cmd.length ∧ 5 ≤ rspCap) (handlePn53xListPassive env cmd rspCap) := by
  rw [handlePn53xListPassive]
  refine ⟨fun ⟨hlen, hcap⟩ => ?_, fun h => if_pos (by rw [pn53xStatusReplyLen]; omega)⟩
  rw [if_neg (by rw [pn53xStatusReplyLen]; omega)]
  have hnone : EndsInStatus ([pn53xDevPrefix, pn53xRspInListPassiveTarget, pn53xStatusOk] ++ swSuccess) :=
    endsInStatus_append _ (by decide)
  dsimp only
  cases env.typea with
  | none => exact hnone
  | some typea =>
      dsimp only
      generalize (if typea.ats ≠ [] then typea.ats.length + 1 else 0) = atsLen
      split
      · exact hnone
      split
      · exact (buildPn53xStatusReply_replies _ _ rspCap).1 hcap
      · exact endsInStatus_append _ (by decide : swSuccess ∈ statusWords)

theorem pn53xTransceive_replies (responseCode : Byte) (htx : tx ≠ []) (allowed : Bool) (answer : Option Frame)
    (rspCap : Nat) : Replies (5 ≤ rspCap) (pn53xTransceive responseCode tx allowed answer rspCap) := by
  rw [pn53xTransceive.eq_def, pn53xStatusReplyLen]
  refine ⟨fun hcap => ?_, fun h => if_pos (Or.inr (Nat.lt_of_not_le h))⟩
  rw [if_neg (not_or.mpr ⟨htx, Nat.not_lt.mpr hcap⟩)]
  split
  · exact (buildPn53xStatusReply_replies _ _ rspCap).1 hcap
  split
  · exact endsInStatus_append _ (by decide)
  split
  · exact (buildPn53xStatusReply_replies _ _ rspCap).1 hcap
  · exact endsInStatus_append _ (by decide)

theorem drop_ne_nil {n : Nat} (h : n < cmd.length) : cmd.drop n ≠ [] := by
  intro hnil
  rw [List.drop_eq_nil_iff] at hnil
  omega

variable {source : Frame → Prop}

/-- Whatever the relay brings, InDataExchange wraps it. -/
theorem handlePn53xInDataExchange_gives (app : Bool) (cmd : Frame) (rspCap : Nat) :
    (handlePn53xInDataExchange r app cmd rspCap).Gives source (Replies (4 ≤ cmd.length ∧ 5 ≤ rspCap)) := by
  have hempty (h : cmd.length < 4 ∨ rspCap < pn53xStatusReplyLen) : Replies (4 ≤ cmd.length ∧ 5 ≤ rspCap) [] := by
    rw [pn53xStatusReplyLen] at h
    exact ⟨fun hlong => by omega, fun _ => rfl⟩
  have hstatus (hlong : ¬(cmd.length < 4 ∨ rspCap < pn53xStatusReplyLen)) (status : Byte) :
      Replies (4 ≤ cmd.length ∧ 5 ≤ rspCap) (buildPn53xStatusReply pn53xRspInDataExchange status rspCap) := by
    rw [pn53xStatusReplyLen] at hlong
    exact (buildPn53xStatusReply_replies _ _ rspCap).congr (by omega)
  rw [handlePn53xInDataExchange]
  split
  · rw [Emulation.handlePn53xInDataExchange]
    split
    next hshort => exact Relay.gives_pure (hempty hshort)
    next hlong =>
      have hroom : 4 ≤ cmd.length ∧ 5 ≤ rspCap := by
        rw [pn53xStatusReplyLen] at hlong
        omega
      split
      · exact Relay.gives_pure (hstatus hlong _)
      dsimp only
      split
      · exact Relay.gives_pure (hstatus hlong _)
      refine Relay.gives_bind (apduExchange_gives _ _) fun iso _ => Relay.gives_pure ?_
      split
      · exact ⟨fun _ => endsInStatus_append _ (by decide), fun h => absurd hroom h⟩
      split
      · exact hstatus hlong _
      · exact ⟨fun _ => endsInStatus_append _ (by decide), fun h => absurd hroom h⟩
  split
  next hshort => exact Relay.gives_pure (hempty hshort)
  next hlong =>
    split
    · exact Relay.gives_pure (hstatus hlong _)
    split
    · refine Relay.gives_pure ((pn53xTransceive_replies _ (drop_ne_nil ?_) _ _ rspCap).congr ?_)
      · rw [pn53xInDataExchangePayloadSkip]
        omega
      · rw [pn53xStatusReplyLen] at hlong
        omega
    · exact Relay.gives_pure (hstatus hlong _)

theorem handlePn53xInCommunicateThru_replies (cmd : Frame) (rspCap : Nat) :
    Replies (3 ≤ cmd.length ∧ 5 ≤ rspCap) (handlePn53xInCommunicateThru r cmd rspCap) := by
  rw [handlePn53xInCommunicateThru]
  split
  next hshort => exact ⟨fun hlong => by omega, fun _ => rfl⟩
  next hlong =>
    have hroom : 5 ≤ rspCap ↔ 3 ≤ cmd.length ∧ 5 ≤ rspCap := by omega
    have htx : cmd.drop pn53xCommunicateThruPayloadSkip ≠ [] :=
      drop_ne_nil (by rw [pn53xCommunicateThruPayloadSkip]; omega)
    split
    · exact (pn53xTransceive_replies _ htx _ _ rspCap).congr hroom
    · exact (pn53xTransceive_replies _ htx _ _ rspCap).congr hroom
    · exact (buildPn53xStatusReply_replies _ _ rspCap).congr hroom
    · exact (buildPn53xStatusReply_replies _ _ rspCap).congr hroom

end Pn53x

/-! ### Every payload -/

/-- The PN53x command inside a payload's pseudo-APDU. -/
def pn53xCommand (payload : Frame) : Option Frame :=
  let cmd := apduData payload (u8At payload 4)
  if u8At payload 0 = claProprietary ∧ u8At payload 1 = 0 ∧ u8At payload 2 = 0 ∧ u8At payload 3 = 0 ∧
      apduLcBodyOk payload (u8At payload 4) = true ∧ 2 ≤ (u8At payload 4).toNat ∧ u8At cmd 0 = pn53xHostPrefix then
    some cmd
  else none

/-- A header of the FF class without its fifth byte, for a handler that needs it, or a PN53x command without the
bytes that its handler needs. -/
def Truncated (payload : Frame) : Prop :=
  (2 ≤ payload.length ∧ payload.length < 5 ∧ u8At payload 0 = claProprietary ∧
    (u8At payload 1 = claIso ∨ u8At payload 1 = insGetData ∨ u8At payload 1 = escapeTransparentIns)) ∨
  ∃ cmd, pn53xCommand payload = some cmd ∧ cmd.length < pn53xMinLen (u8At cmd 1)

/-- What the shortest answer to a payload takes. -/
def replyRoom (payload : Frame) : Nat :=
  match pn53xCommand payload with
  | none => 2
  | some cmd => pn53xReplyRoom (u8At cmd 1)

def acr122GetFirmware : Frame := [claProprietary, 0x00, acr122P1GetFirmware, 0x00, 0x00]

/-- A response that ends in a status word of the reader, or that is one of the card's, with the card's status word
at its end; or the firmware version, which has none. -/
def Responded (source : Frame → Prop) (payload rsp : Frame) : Prop :=
  EndsInStatus rsp ∨ 2 ≤ rsp.length ∧ source rsp ∨ payload = acr122GetFirmware ∧ rsp = acr122Firmware

/-- The payload is answered where it is whole and its answer fits, and has no bytes for an answer otherwise. -/
def Outcome (source : Frame → Prop) (payload : Frame) (rspCap : Nat) (rsp : Frame) : Prop :=
  (¬Truncated payload ∧ replyRoom payload ≤ rspCap → Responded source payload rsp) ∧
    (¬(¬Truncated payload ∧ replyRoom payload ≤ rspCap) → rsp = [])

section Payloads

variable {source : Frame → Prop} {payload rsp cmd : Frame}

theorem Responded.length_le (h : Responded source payload rsp) : 2 ≤ rsp.length := by
  obtain h | h | ⟨-, rfl⟩ := h
  · exact h.length_le
  · exact h.1
  · decide

theorem pn53xCommand_length (h : pn53xCommand payload = some cmd) : 5 ≤ payload.length ∧ 2 ≤ cmd.length := by
  rw [pn53xCommand] at h
  rw [Option.ite_none_right_eq_some] at h
  obtain ⟨⟨-, -, -, -, hbody, hlc, -⟩, heq⟩ := h
  obtain rfl := Option.some.inj heq
  rw [apduLcBodyOk, beq_iff_eq] at hbody
  rw [apduData, List.length_take, List.length_drop]
  omega

theorem outcome_of_whole (hwhole : ¬Truncated payload) (hnone : pn53xCommand payload = none) (hcap : 2 ≤ rspCap)
    (h : Responded source payload rsp) : Outcome source payload rspCap rsp := by
  refine ⟨fun _ => h, fun hno => absurd ⟨hwhole, ?_⟩ hno⟩
  rw [replyRoom, hnone]
  exact hcap

theorem whole_of_none (hnone : pn53xCommand payload = none)
    (h : ¬(2 ≤ payload.length ∧ payload.length < 5 ∧ u8At payload 0 = claProprietary ∧
      (u8At payload 1 = claIso ∨ u8At payload 1 = insGetData ∨ u8At payload 1 = escapeTransparentIns))) :
    ¬Truncated payload := by
  rintro (hshort | ⟨cmd, hcmd, -⟩)
  · exact h hshort
  · rw [hnone] at hcmd
    cases hcmd

theorem outcome_of_command (hcmd : pn53xCommand payload = some cmd)
    (h : Replies (pn53xMinLen (u8At cmd 1) ≤ cmd.length ∧ pn53xReplyRoom (u8At cmd 1) ≤ rspCap) rsp) :
    Outcome source payload rspCap rsp := by
  have hlen := (pn53xCommand_length hcmd).1
  have hroom : replyRoom payload = pn53xReplyRoom (u8At cmd 1) := by
    rw [replyRoom, hcmd]
  have hwhole : Truncated payload ↔ cmd.length < pn53xMinLen (u8At cmd 1) := by
    constructor
    · rintro (⟨-, hshort, -⟩ | ⟨cmd', hcmd', hless⟩)
      · omega
      · rw [hcmd] at hcmd'
        exact Option.some.inj hcmd' ▸ hless
    · exact fun hless => Or.inr ⟨cmd, hcmd, hless⟩
  rw [Outcome, hroom, hwhole, Nat.not_lt]
  exact ⟨fun hp => Or.inl (h.1 hp), h.2⟩

theorem handleAcr122DirectApdu_gives (r : HostReader) (app : Bool) (hlen : 2 ≤ payload.length)
    (hcla : u8At payload 0 = claProprietary) (hins : u8At payload 1 = claIso) (hcap : 2 ≤ rspCap) :
    (handleAcr122DirectApdu r app payload rspCap).Gives source (Outcome source payload rspCap) := by
  rw [handleAcr122DirectApdu]
  by_cases hshort : payload.length < 5
  · rw [if_pos hshort]
    exact Relay.gives_pure ⟨fun h => absurd (Or.inl ⟨hlen, hshort, hcla, Or.inl hins⟩) h.1, fun _ => rfl⟩
  · have hwhole (hnone : pn53xCommand payload = none) : ¬Truncated payload :=
      whole_of_none hnone fun h => hshort h.2.1
    have hstatus {sw : Frame} (hsw : sw ∈ statusWords) (hnone : pn53xCommand payload = none) :
        Outcome source payload rspCap (appendStatus rspCap sw) :=
      outcome_of_whole (hwhole hnone) hnone hcap (Or.inl (appendStatus_ends hcap hsw))
    rw [if_neg hshort]
    by_cases hfirmware : payload = [claProprietary, 0x00, acr122P1GetFirmware, 0x00, 0x00]
    · have hnone : pn53xCommand payload = none := by
        rw [hfirmware]
        decide
      rw [if_pos hfirmware]
      refine Relay.gives_pure ?_
      split
      · exact hstatus (by decide) hnone
      · exact outcome_of_whole (hwhole hnone) hnone hcap (Or.inr (Or.inr ⟨hfirmware, rfl⟩))
    rw [if_neg hfirmware]
    by_cases hparams : u8At payload 0 ≠ claProprietary ∨ u8At payload 1 ≠ 0 ∨ u8At payload 2 ≠ 0 ∨ u8At payload 3 ≠ 0
    · rw [if_pos hparams]
      refine Relay.gives_pure (hstatus (by decide) (if_neg ?_))
      rintro ⟨h0, h1, h2, h3, -⟩
      exact hparams.elim (· h0) fun h => h.elim (· h1) fun h => h.elim (· h2) (· h3)
    rw [if_neg hparams]
    by_cases hbody : apduLcBodyOk payload (u8At payload 4) = false ∨ (u8At payload 4).toNat < 2
    · rw [if_pos hbody]
      refine Relay.gives_pure (hstatus (by decide) (if_neg ?_))
      rintro ⟨-, -, -, -, hbody', hlc, -⟩
      rcases hbody with h | h
      · rw [h] at hbody'
        cases hbody'
      · omega
    rw [if_neg hbody]
    dsimp only
    split
    next hfront =>
      refine Relay.gives_pure (hstatus (by decide) (if_neg ?_))
      rintro ⟨-, -, -, -, -, -, hfront'⟩
      exact hfront hfront'
    next hfront =>
    have hcmd : pn53xCommand payload = some (apduData payload (u8At payload 4)) := by
      simp only [not_or, not_not, Nat.not_lt, Bool.not_eq_false] at hparams hbody hfront
      exact if_pos ⟨hparams.1, hparams.2.1, hparams.2.2.1, hparams.2.2.2, hbody.1, hbody.2, hfront⟩
    have hmin := (pn53xCommand_length hcmd).2
    generalize apduData payload (u8At payload 4) = cmd at hcmd hmin ⊢
    split
    next hop =>
      refine Relay.gives_pure (outcome_of_command hcmd ?_)
      rw [hop]
      exact (buildPn53xFwVersion_replies rspCap).congr (and_iff_right hmin).symm
    next hversion =>
    split
    next hop =>
      refine Relay.gives_pure (outcome_of_command hcmd ?_)
      rw [hop]
      exact handlePn53xListPassive_replies _ cmd rspCap
    next hlist =>
    split
    next hop =>
      refine (handlePn53xInDataExchange_gives r app cmd rspCap).mono fun rsp hrsp => outcome_of_command hcmd ?_
      rw [hop]
      exact hrsp
    next hexchange =>
    split
    next hop =>
      refine Relay.gives_pure (outcome_of_command hcmd ?_)
      rw [hop]
      exact handlePn53xInCommunicateThru_replies r cmd rspCap
    next hthru =>
    have hroom : 5 ≤ rspCap ↔ pn53xMinLen (u8At cmd 1) ≤ cmd.length ∧ pn53xReplyRoom (u8At cmd 1) ≤ rspCap := by
      rw [pn53xMinLen, if_neg (not_or.mpr ⟨hlist, hexchange⟩), if_neg hthru, pn53xReplyRoom, if_neg hversion]
      exact (and_iff_right hmin).symm
    have hreply (responseCode status : Byte) :
        Outcome source payload rspCap (buildPn53xStatusReply responseCode status rspCap) :=
      outcome_of_command hcmd ((buildPn53xStatusReply_replies _ _ rspCap).congr hroom)
    split
    · exact Relay.gives_pure (hreply _ _)
    split
    · exact Relay.gives_pure (hreply _ _)
    · exact Relay.gives_pure (hreply _ _)

theorem pn53xCommand_eq_none (h : ¬(u8At payload 0 = claProprietary ∧ u8At payload 1 = claIso ∧ 5 ≤ payload.length)) :
    pn53xCommand payload = none := by
  cases hcmd : pn53xCommand payload with
  | none => rfl
  | some cmd =>
      have hlen := (pn53xCommand_length hcmd).1
      rw [pn53xCommand, Option.ite_none_right_eq_some] at hcmd
      exact absurd ⟨hcmd.1.1, hcmd.1.2.1, hlen⟩ h

/-- A storage handler leaves a header that is cut short without an answer. -/
theorem storageApdu_outcome (r : HostReader) (hlen : 2 ≤ payload.length) (hcla : u8At payload 0 = claProprietary)
    (hins : u8At payload 1 ≠ claIso) (hcap : 2 ≤ rspCap) :
    (storageApdu r payload rspCap).Gives source (Outcome source payload rspCap) := by
  have hnone : pn53xCommand payload = none := pn53xCommand_eq_none fun h => hins h.2.1
  obtain ⟨hcut, hanswer⟩ := storageApdu_replies r payload source hcap
  by_cases hshort : (u8At payload 1 = insGetData ∨ u8At payload 1 = escapeTransparentIns) ∧ payload.length < 5
  · have htruncated : Truncated payload := Or.inl ⟨hlen, hshort.2, hcla, Or.inr hshort.1⟩
    rw [hcut hshort]
    exact Relay.gives_pure ⟨fun h => absurd htruncated h.1, fun _ => rfl⟩
  · refine (hanswer hshort).mono fun rsp hrsp => outcome_of_whole (whole_of_none hnone ?_) hnone hcap (Or.inl hrsp)
    rintro ⟨-, hlt, -, hiso | hins'⟩
    · exact hins hiso
    · exact hshort ⟨hins', hlt⟩

theorem responded_of_answered (hcap : 2 ≤ rspCap) (h : Answered source rsp) :
    Responded source payload (if 2 ≤ rsp.length then rsp else appendStatus rspCap swCommandNotAllowed) := by
  split
  next hlen =>
    obtain hcard | rfl | rfl := h hlen
    · exact Or.inr (Or.inl hcard)
    · exact Or.inl (endsInStatus_append [] (by decide))
    · exact Or.inl (endsInStatus_append [] (by decide : swGeneralError ∈ statusWords))
  · exact Or.inl (appendStatus_ends hcap (by decide))

/-- Each payload of the host has its outcome, whatever the card answers and the host aborts. -/
theorem dispatchHostPayload_gives (r : HostReader) (app : Bool) (payload : Frame) (hcap : 2 ≤ rspCap) :
    (dispatchHostPayload r app payload rspCap).Gives source fun x => Outcome source payload rspCap x.1 := by
  rw [dispatchHostPayload]
  have hshort : ¬(payload.length < 2 ∨ rspCap < 2) ∨ payload.length < 2 := by omega
  rcases hshort with hlen | hlen
  · rw [if_neg hlen]
    have hlen : 2 ≤ payload.length := Nat.le_of_not_lt fun h => hlen (Or.inl h)
    split
    next hcla =>
      split
      next hins =>
        exact Relay.gives_bind (handleAcr122DirectApdu_gives r app hlen hcla hins hcap) fun rsp hrsp =>
          Relay.gives_pure hrsp
      next hins =>
        exact Relay.gives_bind (storageApdu_outcome r hlen hcla hins hcap) fun rsp hrsp => Relay.gives_pure hrsp
    next hcla =>
      have hnone : pn53xCommand payload = none := pn53xCommand_eq_none fun h => hcla h.1
      have hwhole : ¬Truncated payload := whole_of_none hnone fun h => hcla h.2.2.1
      have hstatus {sw : Frame} (hsw : sw ∈ statusWords) : Outcome source payload rspCap (appendStatus rspCap sw) :=
        outcome_of_whole hwhole hnone hcap (Or.inl (appendStatus_ends hcap hsw))
      split
      · split
        · exact Relay.gives_pure (hstatus (by decide))
        · exact Relay.gives_pure (hstatus (by decide))
      split
      · split
        · exact Relay.gives_pure (hstatus (by decide))
        · refine Relay.gives_bind (apduExchange_gives _ _) fun iso hiso => Relay.gives_pure ?_
          exact outcome_of_whole hwhole hnone hcap (responded_of_answered hcap hiso)
      · exact Relay.gives_pure (hstatus (by decide))
  · rw [if_pos (Or.inl hlen)]
    have hnone : pn53xCommand payload = none := pn53xCommand_eq_none fun h => by omega
    have hwhole : ¬Truncated payload := whole_of_none hnone fun h => by omega
    exact Relay.gives_pure (outcome_of_whole hwhole hnone hcap (Or.inl (appendStatus_ends hcap (by decide))))

end Payloads

/-! ### The answers of a run -/

/-- The responses a run has received of the card. -/
def FromCard (ops : List Op) (rsp : Frame) : Prop := ∃ apdu received, Op.sent apdu received ∈ ops ∧ bytes received = rsp

/-- **A payload is answered with a status word, in every run, exactly if it is not cut short and its answer fits.** -/
theorem dispatch_responds_iff (r : HostReader) (app : Bool) (payload : Frame) {rspCap : Nat} (hcap : 2 ≤ rspCap)
    {ops : List Op} {rsp : Frame} {flag : Bool}
    (h : (dispatchHostPayload r app payload rspCap).Performs ops (rsp, flag)) :
    Responded (FromCard ops) payload rsp ↔ ¬Truncated payload ∧ replyRoom payload ≤ rspCap := by
  have houtcome : Outcome (FromCard ops) payload rspCap rsp :=
    h.gives (dispatchHostPayload_gives r app payload hcap) fun apdu received hsent => ⟨apdu, received, hsent, rfl⟩
  refine ⟨fun hresponded => ?_, houtcome.1⟩
  refine Classical.byContradiction fun hno => ?_
  have hlen := hresponded.length_le
  rw [houtcome.2 hno] at hlen
  exact absurd hlen (by decide)

/-- A reader in whose field an open Type 2 tag lies. -/
def readerOfOpenTag : HostReader where
  tag := Storage.openTag 144
  cardPresent := true
  uid14 := [0x04, 0xA1, 0xB2, 0xC3, 0xD4, 0xE5, 0xF6]
  sak := 0x00
  atqaValid := true
  atqa := (0x44, 0x00)
  ats := []
  type2Cc := #v[0xE1, 0x10, 0x12, 0x00]
  type5Raw := []
  transceive := fun _ => none
  air := fun _ => none
  medium := Storage.answering
  writes := ⟨fun _ => false, fun _ => true⟩

/-- GET DATA asks for the UID. -/
theorem dispatch_responds_get_uid : Responded (FromCard []) [claProprietary, insGetData, 0x00, 0x00, 0x00]
    (readerOfOpenTag.uid14 ++ Storage.swSuccess) := by
  refine (dispatch_responds_iff readerOfOpenTag false [claProprietary, insGetData, 0x00, 0x00, 0x00]
    (by decide : 2 ≤ 258) (.done (readerOfOpenTag.uid14 ++ Storage.swSuccess, false))).mpr ⟨?_, by decide⟩
  exact whole_of_none (by decide) (by decide)

/-- The same request without its Le byte gets no bytes, in a buffer for any answer to a short APDU. -/
theorem get_data_without_le_unanswered :
    (dispatchHostPayload readerOfOpenTag false [claProprietary, insGetData, 0x00, 0x00] 258).Performs [] ([], false) ∧
      ¬ Responded (FromCard []) [claProprietary, insGetData, 0x00, 0x00] [] := by
  refine ⟨.done ([], false), fun h => ?_⟩
  exact absurd h.length_le (by decide)

end Answers

end NeroReader.HostDispatch
