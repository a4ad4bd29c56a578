import NeroReader.CcidAnswers
import NeroReader.HostDispatch
import NeroReader.Machine

/-!
The application gate of a Type 4 session. The commands the gate speaks of are defined from the APDU codings,
short and extended; the recognisers of the relay read the short SELECTs only, and the load of the capability
container is behind no gate. So the gate holds in sessions whose SELECTs are in the forms they read and that do not
ask for the container once the FIDO application is selected.
-/

namespace NeroReader.Emulation

open IsoDep HostApdu SecurityKey HostDispatch
open Storage (TagKind appendStatus)
open Ccid (claProprietary swGeneralError swInsNotSupported swCommandNotAllowed)

/-! ### Commands -/

/-- The data field of a command APDU that has one, in the short or the extended coding. -/
def commandData (apdu : Frame) : Option Frame :=
  if u8At apdu 4 ≠ 0 then
    if apdu.length = 5 + (u8At apdu 4).toNat ∨ apdu.length = 6 + (u8At apdu 4).toNat then
      some ((apdu.drop 5).take (u8At apdu 4).toNat)
    else none
  else
    let lc := 256 * (u8At apdu 5).toNat + (u8At apdu 6).toNat
    if lc ≠ 0 ∧ (apdu.length = 7 + lc ∨ apdu.length = 9 + lc) then some ((apdu.drop 7).take lc) else none

/-- A command with a body in the short coding. -/
def ShortCoded (apdu : Frame) : Prop := u8At apdu 4 ≠ 0

def SelectsByDfName (aid apdu : Frame) : Prop :=
  u8At apdu 0 = claIso ∧ u8At apdu 1 = insSelect ∧ u8At apdu 2 = p1SelectByDfName ∧ commandData apdu = some aid

def SelectsNdefApp (apdu : Frame) : Prop := SelectsByDfName ndefAppAid apdu ∨ SelectsByDfName ndefAppAidV0 apdu

def SelectsFidoApp (apdu : Frame) : Prop := SelectsByDfName fidoAid apdu

/-- NFCCTAP_MSG. -/
def IsCtapMessage (apdu : Frame) : Prop :=
  u8At apdu 0 = ctapCla ∧ u8At apdu 1 = ctapInsMsg ∧ u8At apdu 2 &&& p1IgnoreMsbMask = 0 ∧ u8At apdu 3 = 0 ∧
    (commandData apdu).isSome = true

/-- NFCCTAP_CONTROL with END, without a body: no Le, a short one or an extended one. -/
def IsControlEnd (apdu : Frame) : Prop :=
  u8At apdu 0 = ctapCla ∧ u8At apdu 1 = ctapInsControl ∧ u8At apdu 2 = ctapP1ControlEnd ∧ u8At apdu 3 = 0 ∧
    (apdu.length = 4 ∨ apdu.length = 5 ∨ (apdu.length = 7 ∧ u8At apdu 4 = 0))

/-- The forms of a FIDO SELECT that the relay recognises. -/
def RecognisedFidoForm (apdu : Frame) : Prop :=
  ShortCoded apdu ∧ (u8At apdu 3 = 0x00 ∨ u8At apdu 3 = 0x0C) ∧ (apdu.length = 14 → u8At apdu 13 = 0)

/-- The forms of a control END that the relay recognises. -/
def RecognisedEndForm (apdu : Frame) : Prop := apdu.length = 4 ∨ (apdu.length = 5 ∧ u8At apdu 4 = 0)

/-! ### Recognisers -/

theorem commandData_short {apdu data : Frame} (hshort : ShortCoded apdu) :
    commandData apdu = some data ↔
      (apdu.length = 5 + (u8At apdu 4).toNat ∨ apdu.length = 6 + (u8At apdu 4).toNat) ∧
        (apdu.drop 5).take (u8At apdu 4).toNat = data := by
  rw [commandData, if_pos (show u8At apdu 4 ≠ 0 from hshort)]
  split
  · rename_i hlen
    rw [Option.some.injEq]
    exact (and_iff_right hlen).symm
  · rename_i hlen
    exact iff_of_false (by simp) fun h => hlen h.1

theorem u8At_of_length_le {buf : Frame} {i : Nat} (h : buf.length ≤ i) : u8At buf i = 0 := by
  rw [u8At, List.getD_eq_getElem?_getD, List.getElem?_eq_none h]
  rfl

theorem lt_length_of_u8At {buf : Frame} {i : Nat} (h : u8At buf i ≠ 0) : i < buf.length := by
  by_contra hge
  exact h (u8At_of_length_le (Nat.not_lt.mp hge))

theorem lc_ok_iff (apdu : Frame) (lc : Byte) :
    ¬ (apduLcBodyOk apdu lc = false ∧ apduLcBodyWithLeOk apdu lc = false) ↔
      apdu.length = 5 + lc.toNat ∨ apdu.length = 6 + lc.toNat := by
  rw [apduLcBodyOk, apduLcBodyWithLeOk, not_and_or, Bool.not_eq_false, Bool.not_eq_false, beq_iff_eq, beq_iff_eq]

/-- **The NDEF recogniser reads the short SELECTs**, whatever their P2 and Le. -/
theorem apduSelectsNdefApp_iff (apdu : Frame) :
    apduSelectsNdefApp apdu = true ↔ SelectsNdefApp apdu ∧ ShortCoded apdu := by
  by_cases hshort : u8At apdu 4 = 0
  · refine iff_of_false ?_ fun h => h.2 hshort
    rw [apduSelectsNdefApp]
    split
    · exact Bool.false_ne_true
    · rename_i hhead
      rw [apduLc, if_neg (fun h => hhead (.inl h))]
      dsimp only
      rw [if_pos (.inl hshort)]
      exact Bool.false_ne_true
  have hlen : ¬ apdu.length < 5 := Nat.not_lt.mpr (lt_length_of_u8At hshort)
  rw [apduSelectsNdefApp, and_iff_left (show ShortCoded apdu from hshort), SelectsNdefApp, SelectsByDfName,
    SelectsByDfName, commandData_short hshort, commandData_short hshort, ← lc_ok_iff, ← apduData]
  by_cases hhead : u8At apdu 0 = claIso ∧ u8At apdu 1 = insSelect ∧ u8At apdu 2 = p1SelectByDfName
  · obtain ⟨h0, h1, h2⟩ := hhead
    rw [if_neg (by simp [hlen, h0, h1, h2]), apduLc, if_neg hlen]
    dsimp only
    by_cases hbody : apduLcBodyOk apdu (u8At apdu 4) = false ∧ apduLcBodyWithLeOk apdu (u8At apdu 4) = false
    · rw [if_pos (.inr hbody)]
      simp [hbody]
    · rw [if_neg (not_or.mpr ⟨hshort, hbody⟩)]
      simp only [h0, h1, h2, hbody, not_false_eq_true, true_and, Bool.or_eq_true, beq_iff_eq]
  · rw [if_pos (by tauto)]
    tauto

/-- **The FIDO recogniser reads short SELECTs** in the forms the relay uses itself. -/
theorem apduIsSelectFidoAid_iff (apdu : Frame) :
    apduIsSelectFidoAid apdu = true ↔ SelectsFidoApp apdu ∧ RecognisedFidoForm apdu := by
  have hvariant : ∀ (p2 : Byte) (b : Bool), fidoAppSelectVariantMatch p2 b = true ↔ p2 = 0x00 ∨ p2 = 0x0C := by
    intro p2 b
    cases b <;> simp [fidoAppSelectVariantMatch, fidoAppSelectVariants]
  rw [apduIsSelectFidoAid, RecognisedFidoForm]
  by_cases hlen : apdu.length < 5
  · rw [if_pos hlen]
    exact iff_of_false Bool.false_ne_true fun h => h.2.1 (u8At_of_length_le (by omega))
  rw [if_neg hlen]
  by_cases hhead : u8At apdu 0 = claIso ∧ u8At apdu 1 = insSelect ∧ u8At apdu 2 = p1SelectByDfName ∧
      (u8At apdu 3 = 0x00 ∨ u8At apdu 3 = 0x0C)
  · obtain ⟨h0, h1, h2, h3⟩ := hhead
    rw [if_neg (by simp [h0, h1, h2, (hvariant _ false).mpr h3]), apduLc, if_neg hlen]
    dsimp only
    by_cases hlc : u8At apdu 4 = 8
    · have hshort : ShortCoded apdu := by
        rw [ShortCoded, hlc]
        decide
      rw [if_neg (not_not_intro hlc), SelectsFidoApp, SelectsByDfName, commandData_short hshort, ← lc_ok_iff,
        ← apduData]
      by_cases hbody : apduLcBodyOk apdu (u8At apdu 4) = false ∧ apduLcBodyWithLeOk apdu (u8At apdu 4) = false
      · rw [if_pos hbody]
        simp [hbody]
      · rw [if_neg hbody]
        have hle : apduLcBodyWithLeOk apdu (u8At apdu 4) = true ↔ apdu.length = 14 := by
          rw [apduLcBodyWithLeOk, hlc]
          exact beq_iff_eq
        simp only [h0, h1, h2, h3, hbody, hshort, hle, true_and, not_false_eq_true, ite_not]
        by_cases hdata : apduData apdu (u8At apdu 4) = fidoAid
        · rw [if_pos hdata]
          by_cases h14 : apdu.length = 14
          · simp [h14, hdata, (hvariant (u8At apdu 3) true).mpr h3]
          · simp [h14, hdata]
        · rw [if_neg hdata]
          exact iff_of_false Bool.false_ne_true fun h => hdata h.1
    · rw [if_pos hlc]
      refine iff_of_false Bool.false_ne_true ?_
      rintro ⟨⟨-, -, -, hdata⟩, hshort, -⟩
      obtain ⟨hbody, htake⟩ := (commandData_short hshort).mp hdata
      have hcount := congrArg List.length htake
      rw [List.length_take, List.length_drop] at hcount
      change _ = 8 at hcount
      refine hlc (BitVec.eq_of_toNat_eq ?_)
      change _ = 8
      omega
  · rw [if_pos]
    · refine iff_of_false Bool.false_ne_true ?_
      rintro ⟨⟨h0, h1, h2, -⟩, -, h3, -⟩
      exact hhead ⟨h0, h1, h2, h3⟩
    · rw [← Bool.not_eq_true, hvariant]
      tauto

/-- The CTAP recogniser reads both codings. -/
theorem ctapApduCommand_isSome_iff (apdu : Frame) : (ctapApduCommand apdu).isSome = true ↔ IsCtapMessage apdu := by
  rw [ctapApduCommand, IsCtapMessage]
  by_cases hlen : apdu.length < 5
  · rw [if_pos hlen]
    refine iff_of_false (by simp) ?_
    rintro ⟨-, -, -, -, hdata⟩
    have h4 : u8At apdu 4 = 0 := u8At_of_length_le (by omega)
    have h5 : u8At apdu 5 = 0 := u8At_of_length_le (by omega)
    have h6 : u8At apdu 6 = 0 := u8At_of_length_le (by omega)
    simp [commandData, h4, h5, h6] at hdata
  rw [if_neg hlen]
  by_cases hhead : u8At apdu 0 = ctapCla ∧ u8At apdu 1 = ctapInsMsg ∧ u8At apdu 2 &&& p1IgnoreMsbMask = 0 ∧
      u8At apdu 3 = 0
  · obtain ⟨h0, h1, h2, h3⟩ := hhead
    rw [if_neg (by simp [h0, h1, h2, h3])]
    simp only [h0, h1, h2, h3, true_and]
    by_cases hshort : u8At apdu 4 = 0
    · rw [if_neg (not_not_intro hshort), commandData, if_neg (not_not_intro hshort)]
      dsimp only
      by_cases hmin : apdu.length < 8
      · rw [if_pos hmin]
        split
        · rename_i hbody
          omega
        · simp
      · rw [if_neg hmin]
        by_cases hbody : 256 * (u8At apdu 5).toNat + (u8At apdu 6).toNat ≠ 0 ∧
            (apdu.length = 7 + (256 * (u8At apdu 5).toNat + (u8At apdu 6).toNat) ∨
              apdu.length = 9 + (256 * (u8At apdu 5).toNat + (u8At apdu 6).toNat))
        · rw [if_pos hbody, if_neg (by omega)]
          simp
        · rw [if_neg hbody, if_pos (by omega)]
          simp
    · have hbody := lc_ok_iff apdu (u8At apdu 4)
      rw [if_pos hshort, commandData, if_pos hshort]
      by_cases hok : apduLcBodyOk apdu (u8At apdu 4) = false ∧ apduLcBodyWithLeOk apdu (u8At apdu 4) = false
      · rw [if_pos hok, if_neg (fun h => hbody.mpr h hok)]
        simp
      · rw [if_neg hok, if_pos (hbody.mp hok)]
        simp
  · rw [if_pos (by tauto)]
    refine iff_of_false (by simp) ?_
    rintro ⟨h0, h1, h2, h3, -⟩
    exact hhead ⟨h0, h1, h2, h3⟩

theorem ctapApduIsControlEnd_iff (apdu : Frame) :
    ctapApduIsControlEnd apdu = true ↔ IsControlEnd apdu ∧ RecognisedEndForm apdu := by
  rw [ctapApduIsControlEnd, IsControlEnd, RecognisedEndForm]
  by_cases hlen : apdu.length < 4
  · rw [if_pos hlen]
    refine iff_of_false Bool.false_ne_true ?_
    rintro ⟨-, h⟩
    omega
  · rw [if_neg hlen]
    by_cases hhead : u8At apdu 0 = ctapCla ∧ u8At apdu 1 = ctapInsControl ∧ u8At apdu 2 = ctapP1ControlEnd ∧
      u8At apdu 3 = 0
    · obtain ⟨h0, h1, h2, h3⟩ := hhead
      rw [if_neg (by simp [h0, h1, h2, h3])]
      simp only [h0, h1, h2, h3, true_and, Bool.or_eq_true, beq_iff_eq, Bool.and_eq_true]
      tauto
    · rw [if_pos (by tauto)]
      refine iff_of_false Bool.false_ne_true ?_
      rintro ⟨⟨h0, h1, h2, h3, -⟩, -⟩
      exact hhead ⟨h0, h1, h2, h3⟩

/-! ### One payload -/

/-- The APDU of a PN53x InDataExchange command for the one target, inside its pseudo-APDU. -/
def wrappedApdu (payload : Frame) : Option Frame :=
  let cmd := apduData payload (u8At payload 4)
  if u8At payload 0 = claProprietary ∧ u8At payload 1 = 0 ∧ u8At payload 2 = 0 ∧ u8At payload 3 = 0 ∧
      apduLcBodyOk payload (u8At payload 4) = true ∧ 4 ≤ cmd.length ∧ u8At cmd 0 = pn53xHostPrefix ∧
      u8At cmd 1 = pn53xCmdInDataExchange ∧ u8At cmd 2 = pn53xSingleTarget then
    some (cmd.drop pn53xInDataExchangePayloadSkip)
  else none

/-- The APDU that a payload brings to the card. -/
def carriedApdu (payload : Frame) : Option Frame :=
  if u8At payload 0 = claProprietary then wrappedApdu payload else some payload

/-- The card's part of the answer to a payload. -/
def cardAnswer (payload rsp : Frame) : Frame :=
  if u8At payload 0 = claProprietary then (rsp.drop 3).take (rsp.length - pn53xTransceiveOverhead) else rsp

/-- GET DATA of the capability container, which the reader loads from the card it has in the field. -/
def LoadsContainer (r : HostReader) (payload : Frame) : Prop :=
  payload.length = 5 ∧ u8At payload 1 = insGetData ∧ u8At payload 2 = getDataType4Cc ∧ u8At payload 3 = 0x00 ∧
    r.uid14 ≠ [] ∧ r.sak &&& Type4.t4tSakIso14443_4Bit ≠ 0

instance (r : HostReader) (payload : Frame) : Decidable (LoadsContainer r payload) :=
    inferInstanceAs (Decidable (_ ∧ _))

variable {r : HostReader} {app app' : Bool} {payload rsp : Frame} {rspCap : Nat} {ops : List Op}
    {allowed : Frame → Prop}

theorem inDataExchangeRefuses_eq_false {inner : Frame} :
    inDataExchangeRefuses app inner = false ↔
      (app = true → apduSelectsNdefApp inner = false) ∧ apduIsSelectFidoAid inner = false ∧
        ctapApduCommand inner = none ∧ ctapApduIsGetresponse inner = false ∧ ctapApduIsControlEnd inner = false := by
  rw [inDataExchangeRefuses]
  simp only [Bool.or_eq_false_iff, Bool.and_eq_false_iff, Option.isSome_eq_false_iff, Option.isNone_iff_eq_none,
    and_assoc]
  cases app <;> simp

/-- InDataExchange sends at most the APDU behind its header, when the gate lets it pass. -/
theorem handlePn53xInDataExchange_only (hkind : r.tag.kind = .type4) {cmd : Frame}
    (h : 4 ≤ cmd.length → u8At cmd 2 = pn53xSingleTarget →
      inDataExchangeRefuses app (cmd.drop pn53xInDataExchangePayloadSkip) = false →
        allowed (cmd.drop pn53xInDataExchangePayloadSkip)) :
    (HostDispatch.handlePn53xInDataExchange r app cmd rspCap).Only allowed := by
  rw [HostDispatch.handlePn53xInDataExchange, if_pos hkind, handlePn53xInDataExchange]
  refine Relay.only_ite (fun _ => Relay.only_pure _) fun hlen => ?_
  refine Relay.only_ite (fun _ => Relay.only_pure _) fun htarget => ?_
  refine Relay.only_ite (fun _ => Relay.only_pure _) fun hpass => ?_
  rw [Bool.not_eq_true] at hpass
  obtain ⟨-, hfido, hctap, -, -⟩ := inDataExchangeRefuses_eq_false.mp hpass
  have hallowed := h (Nat.not_lt.mp fun hshort => hlen (Or.inl hshort)) (not_not.mp htarget) hpass
  exact Relay.only_bind (apduExchange_only_plain hallowed hfido hctap _) fun _ => Relay.only_pure _

/-- A pseudo-APDU sends at most the APDU it wraps, when the gate lets it pass. -/
theorem handleAcr122DirectApdu_only (hkind : r.tag.kind = .type4)
    (h : ∀ inner, wrappedApdu payload = some inner → inDataExchangeRefuses app inner = false → allowed inner) :
    (handleAcr122DirectApdu r app payload rspCap).Only allowed := by
  rw [handleAcr122DirectApdu]
  refine Relay.only_ite (fun _ => Relay.only_pure _) fun _ => ?_
  refine Relay.only_ite (fun _ => Relay.only_pure _) fun _ => ?_
  refine Relay.only_ite (fun _ => Relay.only_pure _) fun hheader => ?_
  refine Relay.only_ite (fun _ => Relay.only_pure _) fun hbody => ?_
  refine Relay.only_ite (fun _ => Relay.only_pure _) fun hfront => ?_
  refine Relay.only_ite (fun _ => Relay.only_pure _) fun _ => ?_
  refine Relay.only_ite (fun _ => Relay.only_pure _) fun _ => ?_
  refine Relay.only_ite (fun hexchange => ?_) fun _ => ?_
  · simp only [not_or, not_not, Bool.not_eq_false] at hheader hbody hfront
    obtain ⟨h0, h1, h2, h3⟩ := hheader
    refine handlePn53xInDataExchange_only hkind fun hlen htarget hpass => h _ ?_ hpass
    rw [wrappedApdu]
    exact if_pos ⟨h0, h1, h2, h3, hbody.1, hlen, hfront, hexchange, htarget⟩
  refine Relay.only_ite (fun _ => Relay.only_pure _) fun _ => ?_
  refine Relay.only_ite (fun _ => Relay.only_pure _) fun _ => ?_
  exact Relay.only_ite (fun _ => Relay.only_pure _) fun _ => Relay.only_pure _

/-- The storage handlers send nothing, but for the load of the container. -/
theorem storageApdu_only (hload : ¬ LoadsContainer r payload) : (storageApdu r payload rspCap).Only allowed := by
  rw [storageApdu]
  refine Relay.only_ite (fun hget => ?_) fun _ => ?_
  · rw [handleGetDataApdu]
    refine Relay.only_ite (fun _ => Relay.only_pure _) fun _ => ?_
    refine Relay.only_ite (fun _ => Relay.only_pure _) fun hlen => ?_
    refine Relay.only_ite (fun _ => Relay.only_pure _) fun hp2 => ?_
    refine Relay.only_ite (fun _ => Relay.only_pure _) fun _ => ?_
    refine Relay.only_ite (fun _ => Relay.only_pure _) fun _ => ?_
    refine Relay.only_bind ?_ fun _ => Relay.only_pure _
    rw [getDataType45]
    refine Relay.only_ite (fun _ => Relay.only_pure _) fun _ => ?_
    refine Relay.only_ite (fun hp1 => ?_) fun _ => ?_
    · rw [Type4.getType4Info, if_pos]
      · exact Relay.only_pure _
      · by_contra hcard
        obtain ⟨huid, hsak⟩ := not_or.mp hcard
        exact hload ⟨not_not.mp hlen, hget, hp1, not_not.mp hp2, huid, hsak⟩
    refine Relay.only_ite (fun _ => ?_) fun _ => Relay.only_pure _
    cases r.tag.type5 <;> exact Relay.only_pure _
  refine Relay.only_ite (fun _ => Relay.only_pure _) fun _ => ?_
  refine Relay.only_ite (fun _ => Relay.only_pure _) fun _ => ?_
  exact Relay.only_ite (fun _ => Relay.only_pure _) fun _ => Relay.only_pure _

/-- What a payload can send when it does not load the container: an APDU of the host the gate lets pass, the one it
wraps, or a SELECT of the FIDO application by the relay itself. -/
theorem dispatchHostPayload_only (hkind : r.tag.kind = .type4)
    (hload : u8At payload 0 = claProprietary → ¬ LoadsContainer r payload)
    (hdirect : u8At payload 0 ≠ claProprietary → ¬ (app = true ∧ apduSelectsNdefApp payload = true) → allowed payload)
    (hwrapped : ∀ inner, wrappedApdu payload = some inner → inDataExchangeRefuses app inner = false → allowed inner)
    (hown : u8At payload 0 ≠ claProprietary → ∀ apdu, IsOwnSelect apdu → allowed apdu) :
    (dispatchHostPayload r app payload rspCap).Only allowed := by
  unfold dispatchHostPayload
  split
  · exact Relay.only_pure _
  split
  · rename_i hcla
    split
    · exact Relay.only_bind (handleAcr122DirectApdu_only hkind hwrapped) fun _ => Relay.only_pure _
    · exact Relay.only_bind (storageApdu_only (hload hcla)) fun _ => Relay.only_pure _
  rename_i hcla
  rw [if_neg (show ¬ (r.tag.kind = .type2 ∨ r.tag.kind = .type5) by simp [hkind])]
  split
  · exact Relay.only_pure _
  rename_i hgate
  exact Relay.only_bind (apduExchange_only (hdirect hcla hgate) (hown hcla) rspCap) fun _ => Relay.only_pure _

/-- The flag of the session behind a payload: it stays, and a recognised FIDO SELECT with a good answer
sets it. -/
theorem dispatchHostPayload_flag (hkind : r.tag.kind = .type4)
    (h : (dispatchHostPayload r app payload rspCap).Performs ops (rsp, app')) :
    (app = true → app' = true) ∧
      (u8At payload 0 ≠ claProprietary → apduIsSelectFidoAid payload = true → responseSwOk rsp = true →
        app' = true) := by
  have hstatus : ∀ sw : Frame, responseSwOk sw = false → responseSwOk (appendStatus rspCap sw) = false := by
    intro sw hsw
    rw [appendStatus]
    split
    · rfl
    · exact hsw
  unfold dispatchHostPayload at h
  split at h
  · obtain ⟨-, heq⟩ := Relay.performs_pure h
    obtain ⟨rfl, rfl⟩ := Prod.mk.inj heq
    refine ⟨id, fun _ _ hok => ?_⟩
    rw [hstatus _ (by decide)] at hok
    exact absurd hok Bool.false_ne_true
  split at h
  · rename_i hcla
    refine ⟨?_, fun hne => absurd hcla hne⟩
    split at h
    all_goals
      obtain ⟨value, first, rest, -, -, hrest⟩ := Relay.performs_bind h
      obtain ⟨-, heq⟩ := Relay.performs_pure hrest
      exact (Prod.mk.inj heq).2 ▸ id
  rw [if_neg (show ¬ (r.tag.kind = .type2 ∨ r.tag.kind = .type5) by simp [hkind])] at h
  split at h
  · obtain ⟨-, heq⟩ := Relay.performs_pure h
    obtain ⟨rfl, rfl⟩ := Prod.mk.inj heq
    refine ⟨id, fun _ _ hok => ?_⟩
    rw [hstatus _ (by decide)] at hok
    exact absurd hok Bool.false_ne_true
  · obtain ⟨iso, first, rest, -, -, hrest⟩ := Relay.performs_bind h
    obtain ⟨-, heq⟩ := Relay.performs_pure hrest
    obtain ⟨rfl, rfl⟩ := Prod.mk.inj heq
    refine ⟨fun happ => by rw [happ]; rfl, fun _ hselect hok => ?_⟩
    by_cases hlen : 2 ≤ iso.length
    · rw [if_pos hlen] at hok
      rw [hselect, hok]
      exact Bool.or_true _
    · rw [if_neg hlen, hstatus _ (by decide)] at hok
      exact absurd hok Bool.false_ne_true

/-- A wrapped APDU that the gate refuses gets no answer of a card. -/
theorem dispatchHostPayload_refused (hkind : r.tag.kind = .type4) {inner : Frame}
    (hwrapped : wrappedApdu payload = some inner)
    (hrefused : inDataExchangeRefuses app inner = true)
    (h : (dispatchHostPayload r app payload rspCap).Performs ops (rsp, app')) :
    responseSwOk (cardAnswer payload rsp) = false := by
  rw [wrappedApdu] at hwrapped
  split at hwrapped
  swap
  · simp at hwrapped
  rename_i hform
  obtain ⟨h0, h1, h2, h3, hbody, hlen, hfront, hexchange, htarget⟩ := hform
  obtain rfl := Option.some.inj hwrapped
  have hshort : ∀ rsp : Frame, rsp.length ≤ pn53xTransceiveOverhead →
      responseSwOk (cardAnswer payload rsp) = false := by
    intro rsp hle
    rw [cardAnswer, if_pos h0, Nat.sub_eq_zero_of_le hle, List.take_zero]
    rfl
  have hreply : ∀ code status : Byte, (buildPn53xStatusReply code status rspCap).length ≤ pn53xTransceiveOverhead := by
    intro code status
    rw [buildPn53xStatusReply]
    split
    · exact Nat.zero_le _
    · exact le_refl 5
  have hdata : (apduData payload (u8At payload 4)).length = (u8At payload 4).toNat := by
    rw [apduLcBodyOk, beq_iff_eq] at hbody
    rw [apduData, List.length_take, List.length_drop]
    omega
  have hpayload : payload.length = 5 + (u8At payload 4).toNat := by
    rwa [apduLcBodyOk, beq_iff_eq] at hbody
  rw [dispatchHostPayload] at h
  split at h
  · obtain ⟨-, heq⟩ := Relay.performs_pure h
    refine hshort rsp ?_
    rw [(Prod.mk.inj heq).1, appendStatus]
    split
    · exact Nat.zero_le _
    · decide
  rw [if_pos (show u8At payload 1 = claIso from h1)] at h
  obtain ⟨value, first, rest, -, hfirst, hrest⟩ := Relay.performs_bind h
  obtain ⟨-, heq⟩ := Relay.performs_pure hrest
  obtain ⟨rfl, -⟩ := Prod.mk.inj heq
  refine hshort rsp ?_
  have hnotFirmware : payload ≠ [claProprietary, 0x00, acr122P1GetFirmware, 0x00, 0x00] := by
    rintro rfl
    exact absurd h2 (by decide)
  have hcommand : ∀ code : Byte, code ≠ pn53xCmdInDataExchange → u8At (apduData payload (u8At payload 4)) 1 ≠ code :=
    fun code hne heq => hne (heq.symm.trans hexchange)
  rw [handleAcr122DirectApdu, if_neg (by omega), if_neg hnotFirmware, if_neg (by simp [h0, h1, h2, h3]),
    if_neg (by simp [hbody]; omega)] at hfirst
  dsimp only at hfirst
  rw [if_neg (not_not_intro hfront), if_neg (hcommand _ (by decide)), if_neg (hcommand _ (by decide)),
    if_pos hexchange, HostDispatch.handlePn53xInDataExchange, if_pos hkind, handlePn53xInDataExchange] at hfirst
  split at hfirst
  · obtain ⟨-, rfl⟩ := Relay.performs_pure hfirst
    exact Nat.zero_le _
  rw [if_neg (not_not_intro htarget)] at hfirst
  dsimp only at hfirst
  rw [if_pos hrefused] at hfirst
  obtain ⟨-, rfl⟩ := Relay.performs_pure hfirst
  exact hreply _ _

/-- **The CCID layer's dispatch is this program**, with the outcome of its exchange as the environment. -/
theorem dispatchHostPayload_refines (ccid : Ccid.Reader) (base : Ccid.BulkEnv) (hkind : ccid.tagKind = .type4)
    (htag : r.tag.kind = .type4) (hcap : 2 ≤ rspCap)
    (h : (dispatchHostPayload r ccid.type4SecurityKeyApp payload rspCap).Performs ops (rsp, app')) :
    ∃ proprietary exchanged,
      let benv := { base with proprietary := fun _ _ => proprietary, apduExchange := fun _ _ => exchanged }
      (ccid.dispatchHostPayload benv payload rspCap).2 = rsp ∧
        (ccid.dispatchHostPayload benv payload rspCap).1.type4SecurityKeyApp = app' := by
  have hnoted : ∀ (s : Ccid.Reader) (out : Frame) (now : BitVec 32),
      (if out ≠ [] then s.noteHostSessionActivity now else s).type4SecurityKeyApp = s.type4SecurityKeyApp := by
    intro s out now
    obtain ⟨deferred, until_, heq⟩ := Ccid.Reader.noteHostSessionActivity_eq s now
    split
    · rw [heq]
    · rfl
  unfold dispatchHostPayload at h
  unfold Ccid.Reader.dispatchHostPayload
  simp only [hkind, reduceCtorEq, or_self, false_and, and_false, if_false, ne_eq, not_true_eq_false]
  by_cases hlen : payload.length < 2
  · rw [if_pos (.inl hlen)] at h
    obtain ⟨-, heq⟩ := Relay.performs_pure h
    obtain ⟨rfl, rfl⟩ := Prod.mk.inj heq
    refine ⟨[], [], ?_⟩
    rw [if_pos hlen]
    exact ⟨rfl, rfl⟩
  rw [if_neg (by omega)] at h
  simp only [hlen, if_false]
  by_cases hcla : u8At payload 0 = claProprietary
  · rw [if_pos hcla] at h
    have hflag : app' = ccid.type4SecurityKeyApp := by
      split at h
      all_goals
        obtain ⟨value, first, rest, -, -, hrest⟩ := Relay.performs_bind h
        exact (Prod.mk.inj (Relay.performs_pure hrest).2).2
    refine ⟨rsp, [], ?_⟩
    simp only [hcla, if_true]
    exact ⟨trivial, (hnoted ccid rsp base.millis).trans hflag.symm⟩
  rw [if_neg hcla, if_neg (show ¬ (r.tag.kind = .type2 ∨ r.tag.kind = .type5) by simp [htag]), if_pos htag] at h
  simp only [hcla, if_false]
  by_cases hgate : ccid.type4SecurityKeyApp = true ∧ apduSelectsNdefApp payload = true
  · rw [if_pos hgate] at h
    obtain ⟨-, heq⟩ := Relay.performs_pure h
    obtain ⟨rfl, rfl⟩ := Prod.mk.inj heq
    refine ⟨[], [], ?_⟩
    simp only [hgate, and_self, if_true]
    exact ⟨trivial, (hnoted ccid _ base.millis).trans hgate.1⟩
  · rw [if_neg hgate] at h
    obtain ⟨iso, first, rest, -, -, hrest⟩ := Relay.performs_bind h
    obtain ⟨-, heq⟩ := Relay.performs_pure hrest
    obtain ⟨rfl, rfl⟩ := Prod.mk.inj heq
    refine ⟨[], iso, ?_⟩
    simp only [hgate, if_false]
    refine ⟨trivial, (hnoted _ _ base.millis).trans ?_⟩
    by_cases hselect : apduIsSelectFidoAid payload = true ∧ responseSwOk iso = true
    · rw [if_pos hselect, hselect.1, hselect.2]
      exact (Bool.or_true _).symm
    · rw [if_neg hselect, ← Bool.and_eq_true, Bool.not_eq_true] at *
      rw [hselect, Bool.or_false]

/-! ### One session -/

/-- A host payload with what became of it: the reader as it is then, the operations of the relay, the response, and
the flag of the session behind it. -/
structure Exchange where
  reader : HostReader
  payload : Frame
  rspCap : Nat
  ops : List Op
  rsp : Frame
  securityKeyApp : Bool

/-- A Type 4 session from PowerOn on, for any sequence of payloads and any card. -/
def session : Machine Bool Exchange where
  init := false
  allowed := fun app x => x.reader.tag.kind = .type4 ∧
    (dispatchHostPayload x.reader app x.payload x.rspCap).Performs x.ops (x.rsp, x.securityKeyApp)
  next := fun _ x => x.securityKeyApp

/-- The payload is a SELECT of the FIDO application that succeeded. -/
def Exchange.SelectedFido (x : Exchange) : Prop :=
  ∃ apdu, carriedApdu x.payload = some apdu ∧ SelectsFidoApp apdu ∧ responseSwOk (cardAnswer x.payload x.rsp) = true

/-- **The application gate.** Behind a FIDO SELECT that succeeded nothing that is sent selects the NDEF
application; and nothing that is sent from inside InDataExchange belongs to the FIDO application. -/
structure Gated (history : List (Bool × Exchange)) (x : Exchange) : Prop where
  ndef : (∃ y ∈ history, y.2.SelectedFido) → ∀ apdu received, Op.sent apdu received ∈ x.ops → ¬ SelectsNdefApp apdu
  wrapped : (wrappedApdu x.payload).isSome = true → ∀ apdu received, Op.sent apdu received ∈ x.ops →
    ¬ SelectsFidoApp apdu ∧ ¬ IsCtapMessage apdu ∧ ctapApduIsGetresponse apdu = false ∧ ¬ IsControlEnd apdu

/-- The APDU of the payload is in a form its recogniser reads: a FIDO SELECT always, a SELECT of the NDEF
application while the flag is set, a control END inside InDataExchange. And while the flag is set it does not ask
for the capability container. -/
structure Recognisable (r : HostReader) (app : Bool) (payload : Frame) : Prop where
  fido : ∀ apdu, carriedApdu payload = some apdu → SelectsFidoApp apdu → RecognisedFidoForm apdu
  ndef : app = true → ∀ apdu, carriedApdu payload = some apdu → SelectsNdefApp apdu → ShortCoded apdu
  controlEnd : ∀ apdu, wrappedApdu payload = some apdu → IsControlEnd apdu → RecognisedEndForm apdu
  container : app = true → u8At payload 0 = claProprietary → ¬ LoadsContainer r payload

theorem isOwnSelect_not_ndef {apdu : Frame} (h : IsOwnSelect apdu) : ¬ SelectsNdefApp apdu := by
  obtain ⟨⟨p2, addLe⟩, rfl⟩ := h
  have hdata : commandData (buildSelectFidoApdu (p2, addLe)) = some fidoAid := by
    cases addLe <;> rfl
  rintro (⟨-, -, -, h⟩ | ⟨-, -, -, h⟩) <;> exact absurd (hdata.symm.trans h) (by decide)

theorem wrappedApdu_cla {inner : Frame} (h : wrappedApdu payload = some inner) : u8At payload 0 = claProprietary := by
  rw [wrappedApdu] at h
  split at h
  · rename_i hform
    exact hform.1
  · simp at h

theorem wrappedApdu_ins {inner : Frame} (h : wrappedApdu payload = some inner) : u8At payload 1 = 0 := by
  rw [wrappedApdu] at h
  split at h
  · rename_i hform
    exact hform.2.1
  · simp at h

theorem carriedApdu_of_wrapped {inner : Frame} (h : wrappedApdu payload = some inner) :
    carriedApdu payload = some inner := by
  rw [carriedApdu, if_pos (wrappedApdu_cla h)]
  exact h

/-- While the flag is set, a recognisable payload sends no SELECT of the NDEF application. -/
theorem sends_no_ndef (hkind : r.tag.kind = .type4) (hform : Recognisable r true payload) :
    (dispatchHostPayload r true payload rspCap).Only fun apdu => ¬ SelectsNdefApp apdu := by
  refine dispatchHostPayload_only hkind (hform.container rfl) ?_ ?_ fun _ apdu h => isOwnSelect_not_ndef h
  · intro hcla hgate hselect
    have hshort := hform.ndef rfl payload (if_neg hcla) hselect
    exact hgate ⟨rfl, (apduSelectsNdefApp_iff payload).mpr ⟨hselect, hshort⟩⟩
  · intro inner hinner hpass hselect
    have hshort := hform.ndef rfl inner (carriedApdu_of_wrapped hinner) hselect
    have hseen := (apduSelectsNdefApp_iff inner).mpr ⟨hselect, hshort⟩
    exact absurd (hseen.symm.trans ((inDataExchangeRefuses_eq_false.mp hpass).1 rfl)) (by decide)

/-- **The load of the container passes the gate**: unless the host aborts it, it selects the NDEF application on the
card, whatever the flag. -/
theorem loadsContainer_selects (hcla : u8At payload 0 = claProprietary) (hload : LoadsContainer r payload)
    (hcap : 2 ≤ rspCap) (h : (dispatchHostPayload r app payload rspCap).Performs ops (rsp, app'))
    (hlooks : ∀ pending, Op.abortLooked pending ∈ ops → pending = false) :
    ∃ apdu received, Op.sent apdu received ∈ ops ∧ SelectsNdefApp apdu := by
  obtain ⟨hlen, hins, hp1, hp2, huid, hsak⟩ := hload
  have hiso : u8At payload 1 ≠ claIso := by
    rw [hins]
    decide
  have hcontactless : getDataContactless r getDataType4Cc rspCap = [] := rfl
  have htype2 : getDataType2 r getDataType4Cc rspCap = [] := rfl
  rw [dispatchHostPayload, if_neg (by omega), if_pos hcla, if_neg hiso] at h
  obtain ⟨answer, first, rest, rfl, hstorage, -⟩ := Relay.performs_bind h
  rw [storageApdu, if_pos hins, handleGetDataApdu, if_neg (by omega), if_neg (not_not_intro hlen),
    if_neg (not_not_intro hp2), hp1] at hstorage
  dsimp only at hstorage
  rw [hcontactless, htype2, if_neg (not_not_intro rfl), if_neg (not_not_intro rfl)] at hstorage
  obtain ⟨type45, load, behind, rfl, htype45, -⟩ := Relay.performs_bind hstorage
  rw [getDataType45, if_neg (by decide), if_pos rfl] at htype45
  obtain ⟨info, loads, later, rfl, hinfo, -⟩ := Relay.performs_bind htype45
  rw [Type4.getType4Info, if_neg (not_or.mpr ⟨huid, hsak⟩)] at hinfo
  obtain ⟨received, hmem⟩ := Type4.type4LoadInfo_selects hinfo fun pending hp => hlooks pending (by simp [hp])
  refine ⟨Type4.selectAidApdu ndefAppAid Type4.p2SelectFirst true, received, by simp [hmem], .inl ?_⟩
  exact ⟨by decide, by decide, by decide, by decide⟩

/-- A recognisable wrapped payload sends nothing that belongs to the FIDO application. -/
theorem sends_no_fido (hkind : r.tag.kind = .type4) {inner : Frame} (hform : Recognisable r app payload)
    (hinner : wrappedApdu payload = some inner) :
    (dispatchHostPayload r app payload rspCap).Only fun apdu =>
      ¬ SelectsFidoApp apdu ∧ ¬ IsCtapMessage apdu ∧ ctapApduIsGetresponse apdu = false ∧ ¬ IsControlEnd apdu := by
  have hcla := wrappedApdu_cla hinner
  have hload : ¬ LoadsContainer r payload := by
    rintro ⟨-, hins, -⟩
    rw [wrappedApdu_ins hinner] at hins
    exact absurd hins (by decide)
  refine dispatchHostPayload_only hkind (fun _ => hload) (fun hne => absurd hcla hne) ?_ fun hne => absurd hcla hne
  intro apdu hapdu hpass
  obtain ⟨-, hfido, hctap, hgetresponse, hend⟩ := inDataExchangeRefuses_eq_false.mp hpass
  refine ⟨fun hselect => ?_, fun hmessage => ?_, hgetresponse, fun hcontrol => ?_⟩
  · have hseen := (apduIsSelectFidoAid_iff apdu).mpr
      ⟨hselect, hform.fido apdu (carriedApdu_of_wrapped hapdu) hselect⟩
    exact absurd (hseen.symm.trans hfido) (by decide)
  · have hseen := (ctapApduCommand_isSome_iff apdu).mpr hmessage
    rw [hctap] at hseen
    exact absurd hseen (by decide)
  · have hseen := (ctapApduIsControlEnd_iff apdu).mpr ⟨hcontrol, hform.controlEnd apdu hapdu hcontrol⟩
    exact absurd (hseen.symm.trans hend) (by decide)

/-- A recognisable FIDO SELECT that succeeds sets the flag. -/
theorem selectedFido_flag {x : Exchange} (hform : Recognisable x.reader app x.payload) (hok : session.allowed app x)
    (h : x.SelectedFido) : x.securityKeyApp = true := by
  obtain ⟨apdu, hcarried, hselect, hanswer⟩ := h
  have hseen := (apduIsSelectFidoAid_iff apdu).mpr ⟨hselect, hform.fido apdu hcarried hselect⟩
  rw [carriedApdu] at hcarried
  split at hcarried
  · have hrefused : inDataExchangeRefuses app apdu = true := by
      rw [inDataExchangeRefuses, hseen]
      simp
    exact absurd (hanswer.symm.trans (dispatchHostPayload_refused hok.1 hcarried hrefused hok.2)) (by decide)
  · rename_i hcla
    obtain rfl := Option.some.inj hcarried
    rw [cardAnswer, if_neg hcla] at hanswer
    exact (dispatchHostPayload_flag hok.1 hok.2).2 hcla hseen hanswer

/-- In a session of recognisable payloads the flag is set once a FIDO SELECT has succeeded. -/
theorem session_flag {history : List (Bool × Exchange)} (hrun : session.Run history app)
    (hforms : ∀ y ∈ history, Recognisable y.2.reader y.1 y.2.payload) (hselected : ∃ y ∈ history, y.2.SelectedFido) :
    app = true := by
  induction hrun with
  | start =>
      obtain ⟨y, hy, -⟩ := hselected
      simp at hy
  | step hrun hok ih =>
      rename_i history app x
      obtain ⟨y, hy, hselected⟩ := hselected
      rcases List.mem_append.mp hy with hy | hy
      · have hbefore := ih (fun z hz => hforms z (List.mem_append_left _ hz)) ⟨y, hy, hselected⟩
        exact (dispatchHostPayload_flag hok.1 hok.2).1 hbefore
      · have hlast := hforms _ (List.mem_append_right _ (List.mem_singleton_self (app, x)))
        obtain rfl := List.mem_singleton.mp hy
        exact selectedFido_flag hlast hok hselected

/-- A reader in whose field an ISO-DEP card lies. -/
def readerOfCard : HostReader where
  tag := ⟨.type4, none, none, Vector.replicate 8 0⟩
  cardPresent := true
  uid14 := [0x04, 0x52, 0x10, 0x2A, 0x3B, 0x4C, 0x5D]
  sak := 0x20
  atqaValid := true
  atqa := (0x44, 0x03)
  ats := [0x06, 0x75, 0x77, 0x81, 0x02, 0x80]
  type2Cc := Vector.replicate 4 0
  type5Raw := []
  transceive := fun _ => none
  air := fun _ => none
  medium := Storage.answering
  writes := ⟨fun _ => false, fun _ => false⟩

/-- A payload the card answers with `9000`. -/
def acknowledged (payload : Frame) : Exchange :=
  ⟨readerOfCard, payload, 2050, [.sent payload (.ok [0x90, 0x00])], [0x90, 0x00], true⟩

def fidoSelect : Frame := buildSelectFidoApdu (0x00, true)
def ndefSelect : Frame := [0x00, 0xA4, 0x04, 0x0C, 0x07] ++ ndefAppAid

/-- A SELECT of the NDEF application in the extended coding. -/
def extendedNdefSelect : Frame := [0x00, 0xA4, 0x04, 0x0C, 0x00, 0x00, 0x07] ++ ndefAppAid

theorem fidoSelect_run : session.Run [(false, acknowledged fidoSelect)] true :=
  .step (e := acknowledged fidoSelect) .start ⟨rfl, .sendApdu (.ok [0x90, 0x00]) (.done _)⟩

theorem fidoSelect_selected : (acknowledged fidoSelect).SelectedFido :=
  ⟨fidoSelect, by decide, ⟨by decide, by decide, by decide, by decide⟩, by decide⟩

/-- A short SELECT of the NDEF application behind a FIDO SELECT is answered by the reader. -/
def refusedNdefSelect : Exchange := ⟨readerOfCard, ndefSelect, 2050, [], swCommandNotAllowed, true⟩

end NeroReader.Emulation
