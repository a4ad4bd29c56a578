import NeroReader.CcidInvariant

/-!
What every path of the bulk handler does: it keeps the lifecycle invariant, notifies nothing, and sends
time-extension frames and behind them one well-formed response of the command's type. The slot state
that the response reports is a parameter of the statement, since two paths report a fixed one.
-/

namespace NeroReader.Ccid

open IsoDep HostApdu
open Storage (Word TagKind)

/-- A data block that only asks the host for more time. -/
def isTimeExtension (f : Frame) : Bool := u8At f 7 &&& 0xC0 == iccCmdTimeExtension

/-- The bmICCStatus bits of a response. -/
def iccStatusOf (f : Frame) : Byte := u8At f 7 &&& 0x03

/-- The three slot states. -/
def IsIccState (icc : Byte) : Prop := icc = iccActive ∨ icc = iccInactive ∨ icc = iccNoIcc

/-- `t` answers the command in `frame`, its response reports the slot state `icc`, and the reader keeps
its invariant and its card. -/
structure Answers (frame : Frame) (r : Reader) (t : Turn) (icc : Byte) : Prop where
  consistent : t.reader.Consistent
  card : t.reader.cardPresent = r.cardPresent
  quiet : t.notified = []
  response : ∃ extensions rsp level, t.sent = extensions ++ [rsp] ∧
    (∀ f ∈ extensions, isTimeExtension f = true) ∧
    Responds (responseMsgForBulkCommand (commandOf frame)) (seqOf frame) level rsp ∧
    (level = icc ∨ level = iccCmdFail ||| icc)

theorem isTimeExtension_of_mem_replicate {n : Nat} {seq : Byte} :
    ∀ f ∈ List.replicate n (replyDataTimeExtension seq).frame, isTimeExtension f = true := by
  intro f hf
  have h : Responds rspDataBlock seq (iccCmdTimeExtension ||| iccActive) (replyDataTimeExtension seq).frame :=
    responds_of_header (n := 0) (by decide) [] rfl rfl
  rw [List.eq_of_mem_replicate hf, isTimeExtension, h.status]
  decide

section Building

variable {frame : Frame} {r r' : Reader} {icc : Byte}

theorem answers_reply {rsp : Response} {msg level : Byte} (hr : r'.Consistent)
    (hcard : r'.cardPresent = r.cardPresent) (hmsg : responseMsgForBulkCommand (commandOf frame) = msg)
    (hrsp : Responds msg (seqOf frame) level rsp.frame)
    (hlevel : level = icc ∨ level = iccCmdFail ||| icc) : Answers frame r (.reply r' rsp) icc :=
  ⟨hr, hcard, rfl, [], rsp.frame, level, rfl, by simp, hmsg ▸ hrsp, hlevel⟩

/-- A refusal reports the state the slot is in. -/
theorem answers_commandFailed (hr : r'.Consistent) (hcard : r'.cardPresent = r.cardPresent) {s : Reader}
    (hicc : s.currentIccLevel = icc) (err : Byte) :
    Answers frame r (.reply r' (s.commandFailed frame err)) icc :=
  answers_reply hr hcard rfl (responds_commandFailed _ _ _ err) (Or.inr (by rw [hicc]))

/-- Time-extension frames in front of an answer. -/
theorem Answers.behind {next : Reader → Turn} (h : Answers frame r' (next r') icc)
    (hcard : r'.cardPresent = r.cardPresent) {extensions : List Frame}
    (hext : ∀ f ∈ extensions, isTimeExtension f = true) (dispatched : List Frame) :
    Answers frame r (Turn.andThen ⟨r', extensions, dispatched, []⟩ next) icc := by
  obtain ⟨more, rsp, level, hsent, hmore, hrsp, hlevel⟩ := h.response
  refine ⟨h.consistent, h.card.trans hcard, h.quiet, extensions ++ more, rsp, level, ?_, ?_, hrsp, hlevel⟩
  · rw [List.append_assoc, ← hsent]
    rfl
  · intro f hf
    rcases List.mem_append.mp hf with hf | hf
    · exact hext f hf
    · exact hmore f hf

theorem Answers.of_card {t : Turn} (h : Answers frame r' t icc) (hcard : r'.cardPresent = r.cardPresent) :
    Answers frame r t icc := { h with card := h.card.trans hcard }

end Building

namespace Reader

variable (r : Reader) (env : BulkEnv) (frame : Frame)

/-! ### The pieces -/

theorem noteHostSessionActivity_eq (now : BitVec 32) : ∃ deferred until_, r.noteHostSessionActivity now =
    { r with removeDeferred := deferred, removeDeferUntilMs := until_ } := by
  unfold noteHostSessionActivity
  split
  · exact ⟨_, _, rfl⟩
  · exact ⟨_, _, rfl⟩

/-- A payload that is dispatched leaves everything but the security-key flag and the removal deadline. -/
theorem dispatchHostPayload_eq (payload : Frame) (rspCap : Nat) : ∃ app deferred until_,
    (r.dispatchHostPayload env payload rspCap).1 =
      { r with type4SecurityKeyApp := app, removeDeferred := deferred, removeDeferUntilMs := until_ } := by
  have hnoted : ∀ app : Bool, ∀ rsp : Frame, ∃ deferred until_,
      (if rsp ≠ [] then { r with type4SecurityKeyApp := app }.noteHostSessionActivity env.millis
        else { r with type4SecurityKeyApp := app }) =
      { r with type4SecurityKeyApp := app, removeDeferred := deferred, removeDeferUntilMs := until_ } := by
    intro app rsp
    split
    · exact noteHostSessionActivity_eq _ _
    · exact ⟨_, _, rfl⟩
  rw [dispatchHostPayload]
  by_cases hshort : payload.length < 2
  · rw [if_pos hshort]
    exact ⟨_, _, _, rfl⟩
  rw [if_neg hshort]
  by_cases hclass : u8At payload 0 ≠ claProprietary ∧ (r.tagKind = .type2 ∨ r.tagKind = .type5) ∧
    u8At payload 0 ≠ claIso
  · rw [if_pos hclass]
    exact ⟨_, _, _, rfl⟩
  rw [if_neg hclass]
  by_cases hcla : u8At payload 0 = claProprietary
  · rw [if_pos hcla]
    exact ⟨_, hnoted r.type4SecurityKeyApp _⟩
  rw [if_neg hcla]
  by_cases hstorage : r.tagKind ≠ .type4
  · rw [if_pos hstorage]
    exact ⟨_, hnoted r.type4SecurityKeyApp _⟩
  rw [if_neg hstorage]
  by_cases hgate : r.type4SecurityKeyApp = true ∧ apduSelectsNdefApp payload = true
  · rw [if_pos hgate]
    exact ⟨_, hnoted r.type4SecurityKeyApp _⟩
  rw [if_neg hgate]
  dsimp only
  by_cases hfido : apduIsSelectFidoAid payload = true ∧ responseSwOk (env.apduExchange payload rspCap) = true
  · rw [if_pos hfido]
    exact ⟨_, hnoted true _⟩
  · rw [if_neg hfido]
    exact ⟨_, hnoted r.type4SecurityKeyApp _⟩

theorem currentIccLevel_session {r : Reader} (h : r.Consistent) (hsess : r.sess = true) :
    r.currentIccLevel = iccActive := by
  unfold currentIccLevel
  rw [h.session_card hsess, hsess]
  rfl

theorem replyParamStatus_eq : r.replyParamStatus = r.currentIccLevel := rfl

theorem sendXfrChainChunk_answers {r : Reader} (h : r.Consistent) (hactive : r.chainActive = true)
    (hcmd : commandOf frame = .xfr) :
    Answers frame r (r.sendXfrChainChunk env (seqOf frame))
      (r.sendXfrChainChunk env (seqOf frame)).reader.currentIccLevel := by
  have hrest := h.response_chain_rest hactive
  have hsess := h.response_chain hactive
  have hrsp : ∀ chain : Byte, ∀ n : Nat, n ≤ rspDataCap →
      Responds rspDataBlock (seqOf frame) iccActive
        (replyData (seqOf frame) chain ((r.chainBuf.drop r.chainOff).take n)).frame := by
    intro chain n hn
    refine responds_data _ _ ?_
    rw [List.length_take]
    unfold maxXfrPayload
    unfold rspDataCap at hn
    omega
  unfold sendXfrChainChunk
  rw [if_neg (by simp only [hactive, Bool.true_eq_false, false_or]; omega)]
  dsimp only
  split
  · exact answers_reply h.clearXfrResponseChain rfl (congrArg _ hcmd) (hrsp _ _ (Nat.min_le_right _ _))
      (Or.inl (currentIccLevel_session h.clearXfrResponseChain hsess).symm)
  · rename_i hmore
    have hnext : { r with chainOff := r.chainOff + min (r.chainBuf.length - r.chainOff) rspDataCap }.Consistent :=
      { h with
        response_chain_rest := by
          intro _
          simp only [not_or, Nat.not_le] at hmore
          exact ⟨hmore.2, hrest.2⟩ }
    exact answers_reply hnext rfl (congrArg _ hcmd) (hrsp _ _ (Nat.min_le_right _ _))
      (Or.inl (currentIccLevel_session hnext hsess).symm)

theorem sendXfrDataResponse_answers {r : Reader} (h : r.Consistent) (hsess : r.sess = true)
    (hcmd : commandOf frame = .xfr) (data : Frame) :
    Answers frame r (r.sendXfrDataResponse env (seqOf frame) data)
      (r.sendXfrDataResponse env (seqOf frame) data).reader.currentIccLevel := by
  have hcleared := h.clearXfrResponseChain
  have hsingle : ∀ d : Frame, d.length ≤ maxXfrPayload → Answers frame r
      (.reply r.clearXfrResponseChain (replyData (seqOf frame) xfrLevelSingle d))
      r.clearXfrResponseChain.currentIccLevel := by
    intro d hd
    exact answers_reply hcleared rfl (congrArg _ hcmd) (responds_data _ _ hd)
      (Or.inl (currentIccLevel_session hcleared hsess).symm)
  unfold sendXfrDataResponse
  dsimp only
  split
  · rename_i hlen
    exact hsingle data (le_trans hlen (by decide))
  split
  · exact hsingle swGeneralError (by decide)
  · rename_i hlong hfits
    have hchain : { r.clearXfrResponseChain with
        chainBuf := data, chainOff := 0, chainActive := true }.Consistent :=
      { hcleared with
        response_chain := fun _ => hsess
        response_chain_rest := by
          intro _
          unfold rspDataCap at hlong
          exact ⟨by dsimp only; omega, by dsimp only; omega⟩ }
    exact (sendXfrChainChunk_answers env frame hchain rfl hcmd).of_card rfl

/-! ### The commands -/

theorem iccOff_answers {r : Reader} (h : r.Consistent) (hcmd : commandOf frame = .iccOff) :
    Answers frame r (r.iccOff (seqOf frame)) (r.iccOff (seqOf frame)).reader.currentIccLevel := by
  unfold iccOff
  refine answers_reply (h.teardownSession.setProtocol _) rfl (congrArg _ hcmd) (responds_slotStatus _ _ _ _) (Or.inl ?_)
  change _ = if r.cardPresent = false then iccNoIcc else iccInactive
  change (if r.cardPresent = true then iccInactive else iccNoIcc) = _
  cases r.cardPresent <;> rfl

/-- A session opens on a present card whose kind matches the ISO-DEP session. -/
theorem consistent_powerOn {r : Reader} (hcard : r.cardPresent = true) (hkind : r.tagKind ≠ .none)
    (hiso : r.isoSessionOpen = true → r.tagKind = .type4) (happ : r.type4SecurityKeyApp = false)
    (hchain : r.chainActive = false)
    (habort : ∀ slot seq, r.abortRequest = some (slot, seq) → slot = 0) (now : BitVec 32) :
    ({ r with sess := true, owner := .ccid }.noteHostSessionActivity now).Consistent where
  session_card := fun _ => hcard
  card_kind := fun _ => hkind
  iso_session := fun h => ⟨rfl, hiso h⟩
  security_key := fun h => absurd (happ.symm.trans h) Bool.false_ne_true
  response_chain := fun _ => rfl
  response_chain_rest := fun h => absurd (hchain.symm.trans h) Bool.false_ne_true
  command_chain := fun _ => rfl
  owner_session := fun h => absurd h.symm Bool.false_ne_true
  deferred_removal := fun h => absurd h Bool.false_ne_true
  abort_slot := habort

theorem currentIccLevel_closed {r : Reader} (hcard : r.cardPresent = true) (hclosed : r.sess = false) :
    r.currentIccLevel = iccInactive := by
  unfold currentIccLevel
  rw [hcard, hclosed]
  rfl

theorem powerOnDone_answers {r : Reader} (hcard : r.cardPresent = true) (hkind : r.tagKind ≠ .none)
    (hiso : r.isoSessionOpen = true → r.tagKind = .type4) (happ : r.type4SecurityKeyApp = false)
    (hchain : r.chainActive = false)
    (habort : ∀ slot seq, r.abortRequest = some (slot, seq) → slot = 0) (hcmd : commandOf frame = .iccOn)
    {atr : Frame} (hatr : atr.length ≤ rspDataCap) :
    Answers frame r (r.powerOnDone env (seqOf frame) atr)
      (r.powerOnDone env (seqOf frame) atr).reader.currentIccLevel := by
  have hon := consistent_powerOn hcard hkind hiso happ hchain habort env.millis
  unfold powerOnDone
  exact answers_reply hon rfl (congrArg _ hcmd) (responds_data _ _ (le_trans hatr (by decide)))
    (Or.inl (currentIccLevel_session hon rfl).symm)

/-- The refusal of a PowerOn that got no answer to reset. -/
theorem powerOn_mute_answers {r s : Reader} (hs : s.Consistent) (hcard : s.cardPresent = true)
    (hsame : s.cardPresent = r.cardPresent) (hcmd : commandOf frame = .iccOn) :
    Answers frame r
      (.reply s.teardownSession (replyDataBlockError (seqOf frame) (iccCmdFail ||| iccInactive) errIccMute))
      s.teardownSession.currentIccLevel := by
  have hlevel : s.teardownSession.currentIccLevel = iccInactive := currentIccLevel_closed hcard rfl
  exact answers_reply hs.teardownSession hsame (congrArg _ hcmd) (responds_slotStatus _ _ _ _) (Or.inr (by rw [hlevel]))

theorem powerOnType4_answers {r : Reader} (h : r.Consistent) (hclosed : r.sess = false)
    (hcard : r.cardPresent = true) (hkind : r.tagKind = .type4) (hcmd : commandOf frame = .iccOn) :
    Answers frame r (r.powerOnType4 env (seqOf frame))
      (r.powerOnType4 env (seqOf frame)).reader.currentIccLevel := by
  obtain ⟨-, -, hchain, -⟩ := h.closed hclosed
  unfold powerOnType4
  dsimp only
  refine Answers.behind ?_ ?_ isTimeExtension_of_mem_replicate _
  rotate_left
  · rfl
  cases hatr : (if env.openIsoSession = true then copyAtsAsPcscAtr env.ats rspDataCap else none) with
  | none => exact powerOn_mute_answers frame ((h.beginTimeExtension _).setProtocol _) hcard rfl hcmd
  | some atr =>
      have hsome : copyAtsAsPcscAtr env.ats rspDataCap = some atr := by
        split at hatr
        · exact hatr
        · exact absurd hatr (by simp)
      have hdone := powerOnDone_answers (r := { (r.beginTimeExtension (seqOf frame)).setProtocol protocolNumT1 with
          isoSessionOpen := true, type4SecurityKeyApp := false }) env frame hcard (h.card_kind hcard)
        (fun _ => hkind) rfl hchain h.abort_slot hcmd (copyAtsAsPcscAtr_length hsome)
      exact hdone.of_card rfl

theorem powerOnStorage_answers {r : Reader} (h : r.Consistent) (hclosed : r.sess = false)
    (hcard : r.cardPresent = true) (hkind : r.tagKind = .type2 ∨ r.tagKind = .type5)
    (hcmd : commandOf frame = .iccOn) :
    Answers frame r (r.powerOnStorage env (seqOf frame))
      (r.powerOnStorage env (seqOf frame)).reader.currentIccLevel := by
  obtain ⟨hiso, happ, hchain, -⟩ := h.closed hclosed
  obtain ⟨atr, hatr⟩ : ∃ atr, copyStorageCardAtr r.tagKind rspDataCap = some atr :=
    copyStorageCardAtr_isSome hkind (by decide)
  unfold powerOnStorage
  dsimp only
  split
  · exact powerOn_mute_answers frame (h.setProtocol _) hcard rfl hcmd
  · have hatr' : copyStorageCardAtr (r.setProtocol (protocolForTag r.tagKind)).tagKind rspDataCap = some atr :=
      hatr
    have hdone := powerOnDone_answers (r := r.setProtocol (protocolForTag r.tagKind)) env frame hcard
      (h.card_kind hcard) (fun h => absurd (hiso.symm.trans h) Bool.false_ne_true) happ hchain h.abort_slot hcmd
      (copyStorageCardAtr_length hatr)
    rw [hatr']
    exact hdone.of_card rfl

/-- PowerOn without a select error reports the state it ends in. -/
theorem iccOn_answers {r : Reader} (h : r.Consistent) (hcmd : commandOf frame = .iccOn)
    (hselect : powerSelectError (u8At frame 7) = 0) :
    Answers frame r (r.iccOn env frame) (r.iccOn env frame).reader.currentIccLevel := by
  have hdown := h.teardownSession
  unfold iccOn
  dsimp only
  rw [if_neg (not_not_intro hselect)]
  split
  · rename_i hno
    have hcard : r.cardPresent = false := by
      rcases hno with hno | hno
      · exact hno
      · exact Bool.eq_false_iff.mpr fun hcard => h.card_kind hcard hno
    refine answers_reply hdown rfl (congrArg _ hcmd) (responds_slotStatus _ _ _ _) (Or.inr ?_)
    change _ = iccCmdFail ||| (if r.cardPresent = false then iccNoIcc else iccInactive)
    rw [if_pos hcard]
  rename_i hyes
  obtain ⟨hcard', hkind⟩ := not_or.mp hyes
  have hcard : r.teardownSession.cardPresent = true := Bool.eq_true_of_not_eq_false hcard'
  split
  · rename_i ht4
    exact (powerOnType4_answers env frame hdown rfl hcard ht4 hcmd).of_card rfl
  · rename_i hnot4
    refine (powerOnStorage_answers env frame hdown rfl hcard ?_ hcmd).of_card rfl
    cases hk : r.teardownSession.tagKind with
    | none => exact absurd hk hkind
    | type2 => exact Or.inl rfl
    | type4 => exact absurd hk hnot4
    | type5 => exact Or.inr rfl

/-- PowerOn with a bad power select reports an inactive card, whatever the slot holds. -/
theorem iccOn_select_answers {r : Reader} (h : r.Consistent) (hcmd : commandOf frame = .iccOn)
    (hselect : powerSelectError (u8At frame 7) ≠ 0) :
    Answers frame r (r.iccOn env frame) iccInactive ∧ (r.iccOn env frame).reader = r := by
  unfold iccOn
  dsimp only
  rw [if_pos hselect]
  exact ⟨answers_reply h rfl (congrArg _ hcmd) (responds_slotStatus _ _ _ _) (Or.inr rfl), rfl⟩

theorem params_answers {r : Reader} (h : r.Consistent)
    (hcmd : responseMsgForBulkCommand (commandOf frame) = rspParameters) :
    Answers frame r (r.params env frame) (r.params env frame).reader.currentIccLevel := by
  unfold params
  dsimp only
  generalize (if r.cardPresent = true ∧ commandOf frame = .resetParams then protocolNumT1
    else if r.cardPresent = true ∧ commandOf frame = .setParams ∧
      (if r.cardPresent = false then errIccMute else paramErrorForRequest frame) = 0 then u8At frame 7
    else r.protocolNum) = protocolNum
  obtain ⟨deferred, until_, heq⟩ := noteHostSessionActivity_eq (r.setProtocol protocolNum) env.millis
  have hlevel : ((r.setProtocol protocolNum).noteHostSessionActivity env.millis).currentIccLevel =
      r.currentIccLevel := by
    rw [heq]
    rfl
  refine answers_reply ((h.setProtocol _).noteHostSessionActivity _) (by rw [heq]; rfl)
    hcmd (responds_params _ _ _ _) ?_
  change _ = currentIccLevel (noteHostSessionActivity _ _) ∨
    _ = iccCmdFail ||| currentIccLevel (noteHostSessionActivity _ _)
  rw [hlevel]
  by_cases hcard : r.cardPresent = false
  · rw [if_pos hcard]
    right
    unfold currentIccLevel
    rw [if_pos hcard]
  · rw [if_neg hcard, paramIccLevel, replyParamStatus_eq]
    split
    · exact Or.inr rfl
    · exact Or.inl rfl

theorem abort_answers {r : Reader} (h : r.Consistent) (hcmd : commandOf frame = .abort) :
    Answers frame r (r.abort frame) (r.abort frame).reader.currentIccLevel := by
  have hcleared := h.clearXfrResponseChain.clearXfrCommandChain
  have heq : ∀ s : Reader, ∀ slot seq : Byte, (s.clearAbortRequest slot seq).cardPresent = s.cardPresent ∧
      (s.clearAbortRequest slot seq).sess = s.sess := by
    intro s slot seq
    unfold clearAbortRequest
    split <;> exact ⟨rfl, rfl⟩
  obtain ⟨hcard, hsess⟩ := heq r.clearXfrResponseChain.clearXfrCommandChain (slotOf frame) (seqOf frame)
  unfold abort
  refine answers_reply (hcleared.clearAbortRequest _ _) hcard (congrArg _ hcmd) (responds_slotStatus _ _ _ _)
    (Or.inl ?_)
  change r.currentIccLevel = (clearAbortRequest _ _ _).currentIccLevel
  unfold currentIccLevel
  rw [hcard, hsess]
  rfl

theorem setRateClock_answers {r : Reader} (h : r.Consistent) (hcmd : commandOf frame = .setRateClock)
    (dataLen : Nat) :
    Answers frame r (r.setRateClock frame dataLen) (r.setRateClock frame dataLen).reader.currentIccLevel := by
  unfold setRateClock
  refine answers_reply h rfl (congrArg _ hcmd) (responds_dataRateClock _ _ _) ?_
  change (if dataLen ≠ dataRateClockPayloadLen then iccCmdFail ||| r.currentIccLevel
    else r.currentIccLevel) = r.currentIccLevel ∨ _
  split
  · exact Or.inr rfl
  · exact Or.inl rfl

theorem commandNotSupported_answers {r : Reader} (h : r.Consistent) {msg : Byte}
    (hmsg : responseMsgForBulkCommand (commandOf frame) = msg) :
    Answers frame r (.reply r (r.commandNotSupported msg (seqOf frame))) r.currentIccLevel :=
  answers_reply h rfl hmsg (responds_slotStatus _ _ _ _) (Or.inr rfl)

theorem abortArrives_eq (arriving : Option Byte) :
    ∃ request, r.abortArrives arriving = { r with abortRequest := request } := by
  cases arriving with
  | none => exact ⟨_, rfl⟩
  | some seq => exact ⟨_, rfl⟩

/-- A payload that has been handled leaves everything but the security-key flag, the removal deadline,
the abort request, the time-extension number and, behind an END block, the command chain. -/
theorem xfrHandled_eq (apdu : Frame) : ∃ app deferred until_ seq request,
    (r.xfrHandled env frame apdu).1 =
      let s := { r with
        type4SecurityKeyApp := app
        removeDeferred := deferred
        removeDeferUntilMs := until_
        timeExtensionSeq := seq
        abortRequest := request }
      if xfrLevelParameter frame = xfrLevelChainEnd.setWidth 16 then s.clearXfrCommandChain else s := by
  have hbound : ∃ seq, (if r.bindsTimeExtension apdu = true then r.beginTimeExtension (seqOf frame) else r) =
      r.beginTimeExtension seq := by
    split
    · exact ⟨_, rfl⟩
    · exact ⟨r.timeExtensionSeq, rfl⟩
  obtain ⟨seq, hseq⟩ := hbound
  unfold xfrHandled
  dsimp only
  rw [hseq]
  obtain ⟨app, deferred, until_, hdispatch⟩ := dispatchHostPayload_eq (r.beginTimeExtension seq) env apdu
    (if r.tagKind = .type4 then apduRspBytes else rspDataCap)
  obtain ⟨request, hrequest⟩ := abortArrives_eq
    ((r.beginTimeExtension seq).dispatchHostPayload env apdu
      (if r.tagKind = .type4 then apduRspBytes else rspDataCap)).1 env.abortArriving
  refine ⟨app, deferred, until_, seq, request, ?_⟩
  rw [hrequest, hdispatch]
  rfl

theorem xfrHandled_session (apdu : Frame) : (r.xfrHandled env frame apdu).1.sess = r.sess ∧
    (r.xfrHandled env frame apdu).1.cardPresent = r.cardPresent := by
  obtain ⟨app, deferred, until_, seq, request, heq⟩ := r.xfrHandled_eq env frame apdu
  rw [heq]
  dsimp only
  split <;> exact ⟨rfl, rfl⟩

theorem consistent_xfrHandled {r : Reader} (h : r.Consistent) (hsess : r.sess = true) (apdu : Frame) :
    (r.xfrHandled env frame apdu).1.Consistent := by
  have hbound : (if r.bindsTimeExtension apdu = true then r.beginTimeExtension (seqOf frame) else r).Consistent ∧
      (if r.bindsTimeExtension apdu = true then r.beginTimeExtension (seqOf frame) else r).sess = true := by
    split
    · exact ⟨h.beginTimeExtension _, hsess⟩
    · exact ⟨h, hsess⟩
  have harrived := (consistent_dispatch hbound.1 hbound.2 env apdu
    (if r.tagKind = .type4 then apduRspBytes else rspDataCap)).abortArrives env.abortArriving
  unfold xfrHandled
  dsimp only
  split
  · exact harrived.clearXfrCommandChain
  · exact harrived

theorem xfrFinish_answers {r : Reader} (h : r.Consistent) (hsess : r.sess = true)
    (hcmd : commandOf frame = .xfr) (rsp : Frame) :
    Answers frame r (r.xfrFinish env frame rsp) (r.xfrFinish env frame rsp).reader.currentIccLevel := by
  unfold xfrFinish
  split
  · exact answers_commandFailed h.clearXfrResponseChain (by rfl) (by rfl) _
  · exact sendXfrDataResponse_answers env frame h hsess hcmd rsp

theorem timeExtensions_isTimeExtension (seq : Byte) (apdu : Frame) :
    ∀ f ∈ r.timeExtensions env seq apdu, isTimeExtension f = true := by
  unfold timeExtensions
  split
  · exact isTimeExtension_of_mem_replicate
  · simp

/-- **A complete command is answered once**, behind the time extensions. -/
theorem xfrDispatch_answers {r : Reader} (h : r.Consistent) (hsess : r.sess = true)
    (hcmd : commandOf frame = .xfr) (apdu : Frame) :
    Answers frame r (r.xfrDispatch env frame apdu) (r.xfrDispatch env frame apdu).reader.currentIccLevel := by
  obtain ⟨hsess', hcard⟩ := r.xfrHandled_session env frame apdu
  exact Answers.behind (xfrFinish_answers env frame (consistent_xfrHandled env frame h hsess apdu)
    (hsess'.trans hsess) hcmd _) hcard (r.timeExtensions_isTimeExtension env (seqOf frame) apdu) _

theorem append_session (data : Frame) (beginChain : Bool) :
    (r.appendXfrCommandChain data beginChain).1.sess = r.sess ∧
      (r.appendXfrCommandChain data beginChain).1.cardPresent = r.cardPresent := by
  unfold appendXfrCommandChain
  split
  · exact ⟨rfl, rfl⟩
  have hopened : (if beginChain = true then r.clearXfrCommandChain else r).sess = r.sess ∧
      (if beginChain = true then r.clearXfrCommandChain else r).cardPresent = r.cardPresent := by
    split <;> exact ⟨rfl, rfl⟩
  generalize (if beginChain = true then r.clearXfrCommandChain else r) = s at hopened ⊢
  dsimp only
  split
  · exact hopened
  split <;> exact hopened

/-- An XfrBlock in an open session reports the slot as it is. -/
theorem xfr_answers {r : Reader} (h : r.Consistent) (hsess : r.sess = true) (hcmd : commandOf frame = .xfr) :
    Answers frame r (r.xfr env frame) (r.xfr env frame).reader.currentIccLevel := by
  unfold xfr
  dsimp only
  rw [if_neg (by simp [hsess])]
  split
  · split
    · exact answers_commandFailed h.clearXfrCommandChain (by rfl) (by rfl) _
    · exact xfrDispatch_answers env frame h hsess hcmd _
  · have happend := consistent_append h hsess (payloadOf frame)
      (xfrLevelParameter frame == xfrLevelChainBegin.setWidth 16)
    obtain ⟨hsess', hcard⟩ := r.append_session (payloadOf frame)
      (xfrLevelParameter frame == xfrLevelChainBegin.setWidth 16)
    generalize r.appendXfrCommandChain (payloadOf frame)
      (xfrLevelParameter frame == xfrLevelChainBegin.setWidth 16) = result at happend hsess' hcard ⊢
    obtain ⟨s, accepted⟩ := result
    cases accepted with
    | false => exact answers_commandFailed happend hcard rfl _
    | true =>
        dsimp only at happend hsess' hcard ⊢
        split
        · exact answers_reply happend hcard (congrArg _ hcmd)
            (responds_of_header (n := 0) (by decide) [] rfl rfl)
            (Or.inl (currentIccLevel_session happend (hsess'.trans hsess)).symm)
        · exact (xfrDispatch_answers env frame happend (hsess'.trans hsess) hcmd _).of_card hcard

/-- Without a session it reports an empty slot. -/
theorem xfr_closed_answers {r : Reader} (h : r.Consistent) (hclosed : r.sess = false)
    (hcmd : commandOf frame = .xfr) :
    Answers frame r (r.xfr env frame) iccNoIcc ∧ (r.xfr env frame).reader = r := by
  unfold xfr
  dsimp only
  rw [if_pos hclosed]
  exact ⟨answers_reply h rfl (congrArg _ hcmd) (responds_commandFailed .xfr _ _ _) (Or.inr rfl), rfl⟩

/-! ### The handler -/

/-- A command that reports a slot state of its own, other than the one the slot is in: an XfrBlock
without a session on a present card, and a PowerOn refused for its power select when the slot is empty
or active. -/
def Misreports : Prop :=
  (commandOf frame = .xfr ∧ r.sess = false ∧ r.cardPresent = true) ∨
    (commandOf frame = .iccOn ∧ powerSelectError (u8At frame 7) ≠ 0 ∧ r.currentIccLevel ≠ iccInactive)

theorem currentIccLevel_isIccState : IsIccState r.currentIccLevel := by
  unfold currentIccLevel
  split
  · exact Or.inr (Or.inr rfl)
  split
  · exact Or.inl rfl
  · exact Or.inr (Or.inl rfl)

theorem currentIccLevel_eq_noIcc_iff : r.currentIccLevel = iccNoIcc ↔ r.cardPresent = false := by
  unfold currentIccLevel
  cases r.cardPresent <;> cases r.sess <;> decide

/-- Every branch of the switch answers; it reports the slot as it is unless it misreports. -/
theorem command_answers {r : Reader} (h : r.Consistent) (dataLen : Nat) :
    ∃ icc, Answers frame r (r.command env frame dataLen) icc ∧ IsIccState icc ∧
      (icc = (r.command env frame dataLen).reader.currentIccLevel ↔ ¬ r.Misreports frame) := by
  have htrue : ∀ t : Turn, Answers frame r t t.reader.currentIccLevel → ¬ r.Misreports frame →
      ∃ icc, Answers frame r t icc ∧ IsIccState icc ∧
        (icc = t.reader.currentIccLevel ↔ ¬ r.Misreports frame) :=
    fun t ht hm => ⟨_, ht, t.reader.currentIccLevel_isIccState, iff_of_true rfl hm⟩
  have hother : commandOf frame ≠ .xfr → commandOf frame ≠ .iccOn → ¬ r.Misreports frame := by
    rintro hx hon (hm | hm)
    · exact hx hm.1
    · exact hon hm.1
  unfold command
  cases hcmd : commandOf frame with
  | xfr =>
      dsimp only
      cases hsess : r.sess with
      | true =>
          refine htrue _ (xfr_answers env frame h hsess hcmd) ?_
          rintro (hm | hm)
          · exact absurd (hsess.symm.trans hm.2.1) (by decide)
          · exact absurd (hcmd.symm.trans hm.1) (by decide)
      | false =>
          obtain ⟨hans, heq⟩ := xfr_closed_answers env frame h hsess hcmd
          refine ⟨iccNoIcc, hans, Or.inr (Or.inr rfl), ?_⟩
          rw [heq, eq_comm, currentIccLevel_eq_noIcc_iff]
          unfold Misreports
          simp only [hcmd, hsess, true_and, reduceCtorEq, false_and, or_false, Bool.not_eq_true]
  | iccOn =>
      dsimp only
      by_cases hselect : powerSelectError (u8At frame 7) = 0
      · refine htrue _ (iccOn_answers env frame h hcmd hselect) ?_
        rintro (hm | hm)
        · exact absurd (hcmd.symm.trans hm.1) (by decide)
        · exact hm.2.1 hselect
      · obtain ⟨hans, heq⟩ := iccOn_select_answers env frame h hcmd hselect
        refine ⟨iccInactive, hans, Or.inr (Or.inl rfl), ?_⟩
        rw [heq, eq_comm]
        unfold Misreports
        simp only [hcmd, hselect, reduceCtorEq, false_and, false_or, true_and, ne_eq, not_false_eq_true,
          not_not]
  | slotStatus =>
      exact htrue _ (answers_reply h rfl (congrArg _ hcmd) (responds_slotStatus _ _ _ _) (Or.inl rfl))
        (hother (by simp [hcmd]) (by simp [hcmd]))
  | iccOff => exact htrue _ (iccOff_answers frame h hcmd) (hother (by simp [hcmd]) (by simp [hcmd]))
  | getParams =>
      exact htrue _ (params_answers env frame h (by rw [hcmd]; rfl)) (hother (by simp [hcmd]) (by simp [hcmd]))
  | resetParams =>
      exact htrue _ (params_answers env frame h (by rw [hcmd]; rfl)) (hother (by simp [hcmd]) (by simp [hcmd]))
  | setParams =>
      exact htrue _ (params_answers env frame h (by rw [hcmd]; rfl)) (hother (by simp [hcmd]) (by simp [hcmd]))
  | abort => exact htrue _ (abort_answers frame h hcmd) (hother (by simp [hcmd]) (by simp [hcmd]))
  | escape =>
      exact htrue _ (answers_commandFailed h (by rfl) (by rfl) _) (hother (by simp [hcmd]) (by simp [hcmd]))
  | setRateClock =>
      exact htrue _ (setRateClock_answers frame h hcmd dataLen) (hother (by simp [hcmd]) (by simp [hcmd]))
  | secure =>
      exact htrue _ (commandNotSupported_answers frame h (congrArg _ hcmd)) (hother (by simp [hcmd]) (by simp [hcmd]))
  | iccClock =>
      exact htrue _ (commandNotSupported_answers frame h (congrArg _ hcmd)) (hother (by simp [hcmd]) (by simp [hcmd]))
  | t0Apdu =>
      exact htrue _ (commandNotSupported_answers frame h (congrArg _ hcmd)) (hother (by simp [hcmd]) (by simp [hcmd]))
  | mechanical =>
      exact htrue _ (commandNotSupported_answers frame h (congrArg _ hcmd)) (hother (by simp [hcmd]) (by simp [hcmd]))
  | other =>
      exact htrue _ (commandNotSupported_answers frame h (congrArg _ hcmd)) (hother (by simp [hcmd]) (by simp [hcmd]))

/-- The frame passes every check in front of the switch. -/
def ReachesSwitch : Prop :=
  ∃ dataLen, bulkFrameValidate frame = some dataLen ∧ r.bulkRefusal frame dataLen = none ∧
    xfrFrameRequestsResponseContinuation frame = false ∧ r.abortRefuses frame = false

theorem bulkRefusal_answers {r : Reader} (h : r.Consistent) {dataLen : Nat} {rsp : Response}
    (hrefused : r.bulkRefusal frame dataLen = some rsp) :
    ∃ icc, Answers frame r (.reply r rsp) icc ∧ IsIccState icc ∧
      (slotOf frame = 0 → icc = r.currentIccLevel) := by
  have hfailed : ∀ err, some (r.commandFailed frame err) = some rsp →
      ∃ icc, Answers frame r (.reply r rsp) icc ∧ IsIccState icc ∧
        (slotOf frame = 0 → icc = r.currentIccLevel) := by
    intro err herr
    obtain rfl := Option.some.inj herr
    exact ⟨_, answers_commandFailed h (by rfl) (by rfl) err, r.currentIccLevel_isIccState, fun _ => rfl⟩
  unfold bulkRefusal at hrefused
  dsimp only at hrefused
  split at hrefused
  · rename_i hslot
    obtain rfl := Option.some.inj hrefused
    exact ⟨iccNoIcc, answers_reply h rfl rfl (responds_slotAbsent _ _ _ _) (Or.inr rfl),
      Or.inr (Or.inr rfl), fun hzero => absurd hzero hslot⟩
  split at hrefused
  · exact hfailed _ hrefused
  split at hrefused
  · exact hfailed _ hrefused
  split at hrefused
  · exact hfailed _ hrefused
  split at hrefused
  · exact hfailed _ hrefused
  split at hrefused
  · exact hfailed _ hrefused
  · simp at hrefused

/-- Before a command only the chains change. -/
theorem settleChains_eq : ∃ active buf off cmdActive cmdBuf, r.settleChains frame = { r with
    chainActive := active
    chainBuf := buf
    chainOff := off
    cmdChainActive := cmdActive
    cmdChainBuf := cmdBuf } := by
  unfold settleChains
  dsimp only
  split <;> split <;> exact ⟨_, _, _, _, _, rfl⟩

theorem Consistent.settleChains {r : Reader} (h : r.Consistent) : (r.settleChains frame).Consistent := by
  have hresponse : (if r.chainActive = true then r.clearXfrResponseChain else r).Consistent := by
    split
    · exact h.clearXfrResponseChain
    · exact h
  unfold Reader.settleChains
  generalize (if r.chainActive = true then r.clearXfrResponseChain else r) = s at hresponse ⊢
  dsimp only
  split
  · exact hresponse.clearXfrCommandChain
  · exact hresponse

/-- **What a frame with a header does.** It is answered, and for slot 0 the answer reports the slot as it
is unless the frame reaches a command that misreports. -/
theorem handleBulk_answers {r : Reader} (h : r.Consistent) (hlen : bulkHeaderLen ≤ frame.length) :
    ∃ icc, Answers frame r (r.handleBulk env frame) icc ∧ IsIccState icc ∧
      (slotOf frame = 0 → (icc = (r.handleBulk env frame).reader.currentIccLevel ↔
        ¬ (r.ReachesSwitch frame ∧ r.Misreports frame))) := by
  have hkept : ∀ t : Turn, ∀ icc, Answers frame r t icc → IsIccState icc →
      (slotOf frame = 0 → icc = t.reader.currentIccLevel) → ¬ r.ReachesSwitch frame →
      ∃ icc, Answers frame r t icc ∧ IsIccState icc ∧ (slotOf frame = 0 →
        (icc = t.reader.currentIccLevel ↔ ¬ (r.ReachesSwitch frame ∧ r.Misreports frame))) :=
    fun t icc ht hstate hicc hno =>
      ⟨icc, ht, hstate, fun hslot => iff_of_true (hicc hslot) fun hm => hno hm.1⟩
  unfold handleBulk
  cases hvalid : bulkFrameValidate frame with
  | none =>
      dsimp only
      rw [if_pos hlen]
      refine hkept _ _ (answers_commandFailed h (by rfl) (by rfl) _) (currentIccLevel_isIccState _) (fun _ => rfl) ?_
      rintro ⟨n, hn, -⟩
      exact absurd (hvalid.symm.trans hn) (by simp)
  | some dataLen =>
      dsimp only
      cases hrefused : r.bulkRefusal frame dataLen with
      | some rsp =>
          obtain ⟨icc, hans, hstate, hicc⟩ := bulkRefusal_answers frame h hrefused
          refine hkept _ icc hans hstate hicc ?_
          rintro ⟨n, hn, hpass, -⟩
          obtain rfl := Option.some.inj (hvalid.symm.trans hn)
          exact absurd (hrefused.symm.trans hpass) (by simp)
      | none =>
          dsimp only
          split
          · rename_i hcontinue
            have hxfr : commandOf frame = .xfr := by
              unfold xfrFrameRequestsResponseContinuation at hcontinue
              rw [hvalid] at hcontinue
              simp only [Bool.and_eq_true, beq_iff_eq] at hcontinue
              exact hcontinue.1.1.1
            have hno : ¬ r.ReachesSwitch frame := by
              rintro ⟨n, -, -, hc, -⟩
              exact absurd (hcontinue.symm.trans hc) (by decide)
            split
            · rename_i hactive
              exact hkept _ _ (sendXfrChainChunk_answers env frame h hactive hxfr)
                (currentIccLevel_isIccState _) (fun _ => rfl) hno
            · exact hkept _ _ (answers_commandFailed h (by rfl) (by rfl) _) (currentIccLevel_isIccState _)
                (fun _ => rfl) hno
          · rename_i hcontinue
            have hsettled : (r.settleChains frame).Consistent := h.settleChains frame
            obtain ⟨_, _, _, _, _, heq⟩ := r.settleChains_eq frame
            have hcard : (r.settleChains frame).cardPresent = r.cardPresent := by rw [heq]
            have hrefuses : (r.settleChains frame).abortRefuses frame = r.abortRefuses frame := by
              rw [heq]
              rfl
            have hmis : (r.settleChains frame).Misreports frame ↔ r.Misreports frame := by
              rw [heq]
              exact Iff.rfl
            split
            · rename_i habort
              refine hkept _ _ (answers_commandFailed hsettled hcard (by rfl) _)
                (currentIccLevel_isIccState _) (fun _ => rfl) ?_
              rintro ⟨n, -, -, -, hc⟩
              exact absurd (habort.symm.trans (hrefuses.trans hc)) (by decide)
            · rename_i habort
              obtain ⟨icc, hans, hstate, hicc⟩ := command_answers env frame hsettled dataLen
              refine ⟨icc, hans.of_card hcard, hstate, fun _ => ?_⟩
              have hreach : r.ReachesSwitch frame :=
                ⟨dataLen, hvalid, hrefused, Bool.eq_false_iff.mpr hcontinue,
                  hrefuses ▸ Bool.eq_false_iff.mpr habort⟩
              rw [hicc, hmis]
              exact not_congr (and_iff_right hreach).symm

/-- A frame without a header is ignored. -/
theorem handleBulk_short (hlen : frame.length < bulkHeaderLen) : r.handleBulk env frame = .silent r := by
  have hinvalid : bulkFrameValidate frame = none := by
    unfold bulkFrameValidate
    rw [if_pos hlen]
  unfold handleBulk
  rw [hinvalid]
  exact if_neg (Nat.not_le.mpr hlen)

theorem Consistent.handleBulk {r : Reader} (h : r.Consistent) :
    (r.handleBulk env frame).reader.Consistent ∧
      (r.handleBulk env frame).reader.cardPresent = r.cardPresent ∧
      (r.handleBulk env frame).notified = [] := by
  by_cases hlen : bulkHeaderLen ≤ frame.length
  · obtain ⟨icc, hans, -, -⟩ := handleBulk_answers env frame h hlen
    exact ⟨hans.consistent, hans.card, hans.quiet⟩
  · rw [handleBulk_short r env frame (Nat.not_le.mp hlen)]
    exact ⟨h, rfl, rfl⟩

end Reader

end NeroReader.Ccid
