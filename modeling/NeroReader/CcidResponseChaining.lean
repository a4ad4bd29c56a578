import NeroReader.BlockTransfer
import NeroReader.CcidChaining
import NeroReader.CcidResponses

/-!
Response chaining. Each event is something the response chain takes no notice of, an interruption, a
response that is loaded, or a request for its next block; the reader hands out the blocks of the last
response loaded, and a request that meets no open transfer is refused.
-/

namespace NeroReader.Ccid

open IsoDep HostApdu
open Storage (Word TagKind appendStatus)
open BlockTransfer (Ask Level block blockCount level advance openStep openAfter Waiting Continues moreCount)

/-- The `bChainParameter` of a block. -/
def chainParameter : Level → Byte
  | .single => xfrLevelSingle
  | .first => xfrLevelChainBegin
  | .middle => xfrLevelChainMiddle
  | .last => xfrLevelChainEnd

namespace Reader

variable (r : Reader) (env : BulkEnv) (frame : Frame)

/-- The response to a payload that an XfrBlock dispatches. -/
def responseTo (apdu : Frame) : Frame := (r.xfrHandled env frame apdu).2

/-- The host has asked for the command to be aborted by the time its payload is handled. -/
def abortsCommand : Bool :=
  (r.abortArrives env.abortArriving).abortRequest == some (slotOf frame, seqOf frame)

/-- What a frame is to the response chain. A frame that the checks refuse is skipped; any other command
interrupts the chain, and loads a new response when it dispatches a payload whose response fits. -/
def askOf : Ask Byte :=
  match bulkFrameValidate frame with
  | none => .skip
  | some dataLen =>
      if (r.bulkRefusal frame dataLen).isSome = true then .skip
      else if xfrFrameRequestsResponseContinuation frame = true then .more env.sendOk
      else
        match (r.handleBulk env frame).dispatched with
        | [apdu] =>
            if r.abortsCommand env frame = true ∨ extendedRspBufSize < (r.responseTo env frame apdu).length then .cut
            else .load (r.responseTo env frame apdu) env.sendOk
        | _ => .cut

/-- The response chain of the reader as a transfer: the message, and the number of blocks given. -/
def Transfers (r : Reader) : Option (Frame × Nat) → Prop
  | none => r.chainActive = false
  | some (message, k) =>
      r.chainActive = true ∧ r.chainBuf = message ∧ r.chainOff = k * rspDataCap ∧
        0 < k ∧ k < blockCount rspDataCap message

end Reader

/-- The turn answers with block `k` of `message`. -/
def Turn.Hands (t : Turn) (message : Frame) (k : Nat) : Prop :=
  ∃ rsp, t.responses = [rsp] ∧ payloadOf rsp = block rspDataCap message k ∧
    u8At rsp 9 = chainParameter (level rspDataCap message k) ∧ u8At rsp 7 = iccActive

/-- The turn refuses a continuation request: no data, the failure bit, the level parameter at fault. -/
def Turn.Refuses (t : Turn) : Prop :=
  ∃ rsp, t.responses = [rsp] ∧ payloadOf rsp = [] ∧ u8At rsp 7 &&& iccCmdFail = iccCmdFail ∧
    u8At rsp 8 = errBadLevelParameter

/-- What an ask is answered with. -/
def Turn.Answered (t : Turn) : Option (Frame × Nat) → Ask Byte → Prop
  | _, .load message _ => t.Hands message 0
  | some (message, k), .more _ => t.Hands message k
  | none, .more _ => t.Refuses
  | _, _ => True

namespace Reader

variable {r : Reader} (env : BulkEnv) (frame : Frame)

/-- A turn does with the response chain what a sender of blocks does. -/
structure Serves (transfer : Option (Frame × Nat)) (t : Turn) (ask : Ask Byte) : Prop where
  transfers : t.reader.Transfers (openStep rspDataCap transfer ask)
  answered : t.Answered transfer ask

/-! ### Blocks -/

theorem preface_length (seq : Byte) (dataBytes : Nat) (chain : Byte) :
    (replyDataPreface seq dataBytes chain).length = bulkHeaderLen := rfl

theorem replyData_frame (seq chain : Byte) (data : Frame) :
    (replyData seq chain data).frame = replyDataPreface seq data.length chain ++ data := by
  have hlen : (replyDataPreface seq data.length chain ++ data).length = bulkHeaderLen + data.length := by
    rw [List.length_append, preface_length]
  rw [Response.frame, replyData, List.takeD_eq_take _ hlen.ge, ← hlen, List.take_length]

/-- A data block goes out as it is. -/
theorem hands_replyData (s : Reader) (seq : Byte) (message : Frame) (k : Nat) {chain : Byte}
    (hchain : chain = chainParameter (level rspDataCap message k)) :
    (Turn.reply s (replyData seq chain (block rspDataCap message k))).Hands message k := by
  have hframe := replyData_frame seq chain (block rspDataCap message k)
  refine ⟨(replyData seq chain (block rspDataCap message k)).frame, ?_, ?_, ?_, ?_⟩
  · have hplain : isTimeExtension (replyData seq chain (block rspDataCap message k)).frame = false := by
      rw [hframe]
      change (iccActive &&& 0xC0 == iccCmdTimeExtension) = false
      decide
    simp only [Turn.responses, Turn.reply, List.filter_cons, hplain, Bool.not_false, if_true, List.filter_nil]
  · rw [hframe, payloadOf, ← preface_length seq (block rspDataCap message k).length chain, List.drop_left]
  · rw [hframe, ← hchain]
    rfl
  · rw [hframe]
    rfl

/-- The next block of an open transfer. -/
theorem sendXfrChainChunk_serves (message : Frame) (k : Nat) (hactive : r.chainActive = true)
    (hbuf : r.chainBuf = message) (hoff : r.chainOff = k * rspDataCap) (hrest : k * rspDataCap < message.length)
    (hlong : rspDataCap < message.length) (seq : Byte) :
    (r.sendXfrChainChunk env seq).reader.Transfers (advance rspDataCap message k env.sendOk) ∧
      (r.sendXfrChainChunk env seq).Hands message k := by
  have hsucc : (k + 1) * rspDataCap = k * rspDataCap + rspDataCap := Nat.succ_mul _ _
  have hdata : (r.chainBuf.drop r.chainOff).take (min (r.chainBuf.length - r.chainOff) rspDataCap) =
      block rspDataCap message k := by
    rw [hbuf, hoff, block, List.take_eq_take_iff, List.length_drop]
    omega
  have hend : r.chainBuf.length ≤ r.chainOff + min (r.chainBuf.length - r.chainOff) rspDataCap ↔
      message.length ≤ (k + 1) * rspDataCap := by
    rw [hbuf, hoff]
    omega
  have hzero : r.chainOff = 0 ↔ k = 0 := by
    rw [hoff]
    simp [rspDataCap]
  have hlevel : (if r.chainOff = 0 then xfrLevelChainBegin
      else if r.chainBuf.length ≤ r.chainOff + min (r.chainBuf.length - r.chainOff) rspDataCap then xfrLevelChainEnd
      else xfrLevelChainMiddle) = chainParameter (level rspDataCap message k) := by
    rw [level, if_neg (Nat.not_le.mpr hlong)]
    simp only [hzero, hend]
    split_ifs <;> rfl
  rw [sendXfrChainChunk, if_neg (by rw [hactive, hbuf, hoff]; simpa using hrest)]
  dsimp only
  rw [hdata, hlevel, advance]
  simp only [hend]
  by_cases hdone : env.sendOk = false ∨ message.length ≤ (k + 1) * rspDataCap
  · rw [if_pos hdone, if_pos hdone]
    exact ⟨rfl, hands_replyData _ seq message k rfl⟩
  · rw [if_neg hdone, if_neg hdone]
    rw [not_or, Nat.not_le] at hdone
    refine ⟨⟨hactive, hbuf, ?_, k.succ_pos, ?_⟩, hands_replyData _ seq message k rfl⟩
    · change r.chainOff + min (r.chainBuf.length - r.chainOff) rspDataCap = (k + 1) * rspDataCap
      rw [hbuf, hoff]
      omega
    · exact (BlockTransfer.succ_lt_blockCount_iff (by decide) k).mpr hdone.2

/-- A response that fits the chain buffer is loaded. -/
theorem sendXfrDataResponse_serves {data : Frame} (hfits : data.length ≤ extendedRspBufSize) (seq : Byte) :
    (r.sendXfrDataResponse env seq data).reader.Transfers (advance rspDataCap data 0 env.sendOk) ∧
      (r.sendXfrDataResponse env seq data).Hands data 0 := by
  rw [sendXfrDataResponse]
  by_cases hsingle : data.length ≤ rspDataCap
  · have hblock : block rspDataCap data 0 = data := by
      rw [block, Nat.zero_mul, List.drop_zero, List.take_of_length_le hsingle]
    have hhands : (Turn.reply r.clearXfrResponseChain (replyData seq xfrLevelSingle (block rspDataCap data 0))).Hands
        data 0 := hands_replyData r.clearXfrResponseChain seq data 0 (by rw [level, if_pos hsingle]; rfl)
    rw [hblock] at hhands
    rw [if_pos hsingle, advance, if_pos (.inr (by omega))]
    exact ⟨rfl, hhands⟩
  · rw [if_neg hsingle, if_neg (Nat.not_lt.mpr hfits)]
    have hlong : rspDataCap < data.length := Nat.not_le.mp hsingle
    exact sendXfrChainChunk_serves env data 0 rfl rfl (Nat.zero_mul _).symm (by omega) hlong seq

theorem sendXfrDataResponse_closed {data : Frame} (hlong : extendedRspBufSize < data.length) (seq : Byte) :
    (r.sendXfrDataResponse env seq data).reader.chainActive = false := by
  rw [sendXfrDataResponse]
  simp only [extendedRspBufSize] at hlong
  rw [if_neg (by simp only [rspDataCap]; omega), if_pos (by simpa only [extendedRspBufSize] using hlong)]
  rfl

/-! ### The response to a payload -/

/-- The response depends on the tag and the security-key flag only. -/
theorem dispatchHostPayload_rsp {s : Reader} (hkind : s.tagKind = r.tagKind)
    (happ : s.type4SecurityKeyApp = r.type4SecurityKeyApp) (payload : Frame) (rspCap : Nat) :
    (s.dispatchHostPayload env payload rspCap).2 = (r.dispatchHostPayload env payload rspCap).2 := by
  rw [dispatchHostPayload, dispatchHostPayload, hkind, happ]
  by_cases hshort : payload.length < 2
  · rw [if_pos hshort, if_pos hshort]
  rw [if_neg hshort, if_neg hshort]
  by_cases hclass : u8At payload 0 ≠ claProprietary ∧ (r.tagKind = .type2 ∨ r.tagKind = .type5) ∧
    u8At payload 0 ≠ claIso
  · rw [if_pos hclass, if_pos hclass]
  rw [if_neg hclass, if_neg hclass]
  by_cases hcla : u8At payload 0 = claProprietary
  · rw [if_pos hcla, if_pos hcla]
  rw [if_neg hcla, if_neg hcla]
  by_cases hstorage : r.tagKind ≠ .type4
  · rw [if_pos hstorage, if_pos hstorage]
  rw [if_neg hstorage, if_neg hstorage]
  by_cases hgate : r.type4SecurityKeyApp = true ∧ apduSelectsNdefApp payload = true
  · rw [if_pos hgate, if_pos hgate]
  · rw [if_neg hgate, if_neg hgate]

theorem beginTimeExtension_of (b : Bool) (s : Reader) (seq : Byte) :
    ∃ n, (if b = true then s.beginTimeExtension seq else s) = s.beginTimeExtension n := by
  cases b with
  | true => exact ⟨seq, rfl⟩
  | false => exact ⟨s.timeExtensionSeq, rfl⟩

theorem responseTo_congr {s : Reader} (hkind : s.tagKind = r.tagKind)
    (happ : s.type4SecurityKeyApp = r.type4SecurityKeyApp) (apdu : Frame) :
    s.responseTo env frame apdu = r.responseTo env frame apdu := by
  unfold responseTo xfrHandled
  dsimp only
  rw [hkind]
  obtain ⟨n, hn⟩ := beginTimeExtension_of (s.bindsTimeExtension apdu) s (seqOf frame)
  obtain ⟨n', hn'⟩ := beginTimeExtension_of (r.bindsTimeExtension apdu) r (seqOf frame)
  rw [hn, hn']
  exact dispatchHostPayload_rsp (r := r.beginTimeExtension n') (s := s.beginTimeExtension n) env hkind happ apdu _

/-- The abort request behind a payload is the one before it, or the one that arrived meanwhile. -/
theorem xfrHandled_abortRequest (apdu : Frame) :
    (r.xfrHandled env frame apdu).1.abortRequest = (r.abortArrives env.abortArriving).abortRequest := by
  unfold xfrHandled
  dsimp only
  obtain ⟨n, hn⟩ := beginTimeExtension_of (r.bindsTimeExtension apdu) r (seqOf frame)
  rw [hn]
  obtain ⟨app, deferred, until_, hdispatch⟩ := dispatchHostPayload_eq (r.beginTimeExtension n) env apdu
    (if r.tagKind = .type4 then apduRspBytes else rspDataCap)
  rw [hdispatch]
  split <;> cases env.abortArriving <;> rfl

/-! ### Commands -/

theorem noteHostSessionActivity_chainActive (now : BitVec 32) :
    (r.noteHostSessionActivity now).chainActive = r.chainActive := by
  obtain ⟨deferred, until_, heq⟩ := noteHostSessionActivity_eq r now
  rw [heq]

theorem iccOn_chainActive (h : r.chainActive = false) : (r.iccOn env frame).reader.chainActive = false := by
  unfold iccOn
  dsimp only
  split
  · exact h
  split
  · rfl
  split
  · unfold powerOnType4
    dsimp only
    cases (if env.openIsoSession = true then copyAtsAsPcscAtr env.ats rspDataCap else none) with
    | none => rfl
    | some atr => exact noteHostSessionActivity_chainActive env.millis
  · unfold powerOnStorage
    dsimp only
    split
    · rfl
    · split
      · rfl
      · exact noteHostSessionActivity_chainActive env.millis

/-- A command other than an XfrBlock opens no response chain. -/
theorem command_chainActive (h : r.chainActive = false) (hcmd : commandOf frame ≠ .xfr) (dataLen : Nat) :
    (r.command env frame dataLen).reader.chainActive = false := by
  unfold command
  have hparams : (r.params env frame).reader.chainActive = false :=
    (noteHostSessionActivity_chainActive env.millis).trans h
  cases hc : commandOf frame with
  | xfr => exact absurd hc hcmd
  | iccOn => exact iccOn_chainActive env frame h
  | iccOff => rfl
  | abort =>
      change (clearAbortRequest _ _ _).chainActive = false
      unfold clearAbortRequest
      split <;> rfl
  | getParams => exact hparams
  | resetParams => exact hparams
  | setParams => exact hparams
  | slotStatus => exact h
  | iccClock => exact h
  | t0Apdu => exact h
  | mechanical => exact h
  | secure => exact h
  | escape => exact h
  | setRateClock => exact h
  | other => exact h

/-- An XfrBlock either dispatches nothing and leaves the response chain alone, or it is the dispatch of
one payload from a reader that differs in the command chain. -/
theorem xfr_cases : ((r.xfr env frame).dispatched = [] ∧ (r.xfr env frame).reader.chainActive = r.chainActive) ∨
    ∃ active buf apdu, r.xfr env frame =
      { r with cmdChainActive := active, cmdChainBuf := buf }.xfrDispatch env frame apdu := by
  unfold xfr
  dsimp only
  split
  · exact .inl ⟨rfl, rfl⟩
  split
  · split
    · exact .inl ⟨rfl, rfl⟩
    · exact .inr ⟨_, _, _, rfl⟩
  · have happend : ∃ active buf accepted, r.appendXfrCommandChain (payloadOf frame)
        (xfrLevelParameter frame == xfrLevelChainBegin.setWidth 16) =
          ({ r with cmdChainActive := active, cmdChainBuf := buf }, accepted) := by
      unfold appendXfrCommandChain
      dsimp only
      split
      · exact ⟨_, _, _, rfl⟩
      split <;> split <;> first | exact ⟨_, _, _, rfl⟩ | (split <;> exact ⟨_, _, _, rfl⟩)
    obtain ⟨active, buf, accepted, heq⟩ := happend
    rw [heq]
    cases accepted with
    | false => exact .inl ⟨rfl, rfl⟩
    | true =>
        dsimp only
        split
        · exact .inl ⟨rfl, rfl⟩
        · exact .inr ⟨_, _, _, rfl⟩

/-- Time extensions are no responses. -/
theorem hands_behind {extensions dispatched : List Frame} {next : Reader → Turn} {message : Frame} {k : Nat}
    (hext : ∀ f ∈ extensions, isTimeExtension f = true) (h : (next r).Hands message k) :
    (Turn.andThen ⟨r, extensions, dispatched, []⟩ next).Hands message k := by
  obtain ⟨rsp, hrsp, hfields⟩ := h
  refine ⟨rsp, ?_, hfields⟩
  have hrest : extensions.filter (fun f => !isTimeExtension f) = [] := by
    rw [List.filter_eq_nil_iff]
    intro f hf
    simp only [hext f hf, Bool.not_true, Bool.false_eq_true, not_false_eq_true]
  rw [Turn.responses] at hrsp ⊢
  change (extensions ++ (next r).sent).filter _ = _
  rw [List.filter_append, hrest, List.nil_append, hrsp]

theorem serves_skip {transfer : Option (Frame × Nat)} {t : Turn} (h : t.reader.Transfers transfer) :
    Serves transfer t .skip := by
  refine ⟨?_, ?_⟩
  · cases transfer <;> exact h
  · cases transfer <;> trivial

theorem serves_cut {transfer : Option (Frame × Nat)} {t : Turn} (h : t.reader.chainActive = false) :
    Serves transfer t .cut := by
  refine ⟨?_, ?_⟩
  · cases transfer <;> exact h
  · cases transfer <;> trivial

/-- What the dispatch of a payload does with the response chain. -/
theorem xfrDispatch_serves (transfer : Option (Frame × Nat)) (apdu : Frame) :
    Serves transfer (r.xfrDispatch env frame apdu)
      (if r.abortsCommand env frame = true ∨ extendedRspBufSize < (r.responseTo env frame apdu).length then .cut
      else .load (r.responseTo env frame apdu) env.sendOk) := by
  have hrequest : (r.xfrHandled env frame apdu).1.abortRequest = some (slotOf frame, seqOf frame) ↔
      r.abortsCommand env frame = true := by
    rw [xfrHandled_abortRequest, abortsCommand, beq_iff_eq]
  have hreader : (r.xfrDispatch env frame apdu).reader =
      ((r.xfrHandled env frame apdu).1.xfrFinish env frame (r.responseTo env frame apdu)).reader := rfl
  by_cases habort : r.abortsCommand env frame = true
  · rw [if_pos (.inl habort)]
    refine serves_cut ?_
    rw [hreader, xfrFinish, if_pos (hrequest.mpr habort)]
    rfl
  have hfinish : (r.xfrHandled env frame apdu).1.xfrFinish env frame (r.responseTo env frame apdu) =
      (r.xfrHandled env frame apdu).1.sendXfrDataResponse env (seqOf frame) (r.responseTo env frame apdu) := by
    rw [xfrFinish, if_neg (fun h => habort (hrequest.mp h))]
  by_cases hlong : extendedRspBufSize < (r.responseTo env frame apdu).length
  · rw [if_pos (.inr hlong)]
    refine serves_cut ?_
    rw [hreader, hfinish]
    exact sendXfrDataResponse_closed env hlong (seqOf frame)
  · rw [if_neg (by rintro (h | h) <;> contradiction)]
    obtain ⟨htransfers, hhands⟩ := sendXfrDataResponse_serves (r := (r.xfrHandled env frame apdu).1) env
      (Nat.not_lt.mp hlong) (seqOf frame)
    refine ⟨?_, ?_⟩
    · have hstep : openStep rspDataCap transfer (.load (r.responseTo env frame apdu) env.sendOk) =
          advance rspDataCap (r.responseTo env frame apdu) 0 env.sendOk := by
        cases transfer <;> rfl
      rw [hstep, hreader, hfinish]
      exact htransfers
    · have hanswered : (r.xfrDispatch env frame apdu).Hands (r.responseTo env frame apdu) 0 := by
        refine hands_behind (r.timeExtensions_isTimeExtension env (seqOf frame) apdu) ?_
        rw [← hfinish] at hhands
        exact hhands
      cases transfer <;> exact hanswered

/-! ### One frame -/

/-- A continuation request is answered from the open transfer, or refused. -/
theorem continuation_serves {transfer : Option (Frame × Nat)} (h : r.Transfers transfer)
    (hcmd : commandOf frame = .xfr) :
    Serves transfer (if r.chainActive then r.sendXfrChainChunk env (seqOf frame)
      else .reply r (r.commandFailed frame errBadLevelParameter)) (.more env.sendOk) := by
  cases transfer with
  | none =>
      have hclosed : r.chainActive = false := h
      rw [if_neg (by simp [hclosed])]
      refine ⟨hclosed, ?_⟩
      have hrsp : (r.commandFailed frame errBadLevelParameter).frame =
          [rspDataBlock, 0, 0, 0, 0, 0, seqOf frame, iccCmdFail ||| r.currentIccLevel, errBadLevelParameter, 0] := by
        rw [commandFailed, hcmd]
        rfl
      have hplain : isTimeExtension (r.commandFailed frame errBadLevelParameter).frame = false := by
        rw [hrsp]
        exact (level_bits r.currentIccLevel_isIccState (.inr rfl)).1
      refine ⟨(r.commandFailed frame errBadLevelParameter).frame, ?_, ?_, ?_, ?_⟩
      · simp only [Turn.responses, Turn.reply, List.filter_cons, hplain, Bool.not_false, if_true, List.filter_nil]
      · rw [hrsp]
        rfl
      · rw [hrsp]
        change (iccCmdFail ||| r.currentIccLevel) &&& iccCmdFail = iccCmdFail
        rw [BitVec.and_comm, BitVec.and_or_distrib_left, BitVec.and_self]
        rcases r.currentIccLevel_isIccState with h | h | h <;> rw [h] <;> decide
      · rw [hrsp]
        rfl
  | some open_ =>
      obtain ⟨message, k⟩ := open_
      obtain ⟨hactive, hbuf, hoff, hpos, hlt⟩ := h
      obtain ⟨j, rfl⟩ := Nat.exists_eq_succ_of_ne_zero hpos.ne'
      have hrest := (BlockTransfer.succ_lt_blockCount_iff (by decide) j).mp hlt
      have hone : rspDataCap ≤ (j + 1) * rspDataCap := Nat.le_mul_of_pos_left _ j.succ_pos
      obtain ⟨htransfers, hhands⟩ :=
        sendXfrChainChunk_serves env message (j + 1) hactive hbuf hoff hrest (by omega) (seqOf frame)
      rw [if_pos hactive]
      exact ⟨htransfers, hhands⟩

theorem settleChains_chainActive : (r.settleChains frame).chainActive = false := by
  unfold settleChains
  dsimp only
  split <;> split <;> first | rfl | (rename_i h _; exact Bool.eq_false_iff.mpr h)

/-- A command that is not refused. -/
theorem settled_serves (transfer : Option (Frame × Nat)) (dataLen : Nat) {t : Turn}
    (ht : t = if (r.settleChains frame).abortRefuses frame = true
      then .reply (r.settleChains frame) ((r.settleChains frame).commandFailed frame errCmdAborted)
      else (r.settleChains frame).command env frame dataLen) :
    Serves transfer t
      (match t.dispatched with
      | [apdu] =>
          if r.abortsCommand env frame = true ∨ extendedRspBufSize < (r.responseTo env frame apdu).length then .cut
          else .load (r.responseTo env frame apdu) env.sendOk
      | _ => .cut) := by
  have hclosed := settleChains_chainActive (r := r) frame
  obtain ⟨_, _, _, _, _, heq⟩ := r.settleChains_eq frame
  by_cases habort : (r.settleChains frame).abortRefuses frame = true
  · rw [if_pos habort] at ht
    subst ht
    exact serves_cut hclosed
  rw [if_neg habort] at ht
  by_cases hcmd : commandOf frame = .xfr
  · have hswitch : (r.settleChains frame).command env frame dataLen = (r.settleChains frame).xfr env frame := by
      unfold command
      rw [hcmd]
    rw [hswitch] at ht
    rcases xfr_cases (r := r.settleChains frame) env frame with ⟨hnothing, hchain⟩ | ⟨active, buf, apdu, hxfr⟩
    · rw [ht, hnothing]
      exact serves_cut (hchain.trans hclosed)
    · rw [ht, hxfr]
      have hdispatched := (xfrDispatch_chain
        (r := { r.settleChains frame with cmdChainActive := active, cmdChainBuf := buf }) env frame apdu).1
      rw [hdispatched]
      have hserves := xfrDispatch_serves
        (r := { r.settleChains frame with cmdChainActive := active, cmdChainBuf := buf }) env frame transfer apdu
      have hrsp : { r.settleChains frame with cmdChainActive := active, cmdChainBuf := buf }.responseTo env frame apdu =
          r.responseTo env frame apdu :=
        responseTo_congr env frame (by rw [heq]) (by rw [heq]) apdu
      have haborts :
        { r.settleChains frame with cmdChainActive := active, cmdChainBuf := buf }.abortsCommand env frame =
          r.abortsCommand env frame := by
        rw [abortsCommand, abortsCommand, heq]
        cases env.abortArriving <;> rfl
      rw [hrsp, haborts] at hserves
      exact hserves
  · have hidle := idle_command env frame (settleChains_other (r := r) frame hcmd) hcmd dataLen
    rw [ht, hidle.2]
    exact serves_cut (command_chainActive env frame hclosed hcmd dataLen)

/-- **One bulk frame** does with the response chain what a sender of blocks does. -/
theorem handleBulk_serves {transfer : Option (Frame × Nat)} (h : r.Transfers transfer) :
    Serves transfer (r.handleBulk env frame) (r.askOf env frame) := by
  rw [askOf]
  cases hvalid : bulkFrameValidate frame with
  | none =>
      refine serves_skip ?_
      rw [handleBulk, hvalid]
      dsimp only
      split <;> exact h
  | some dataLen =>
      dsimp only
      cases hpass : r.bulkRefusal frame dataLen with
      | some refusal =>
          rw [if_pos Option.isSome_some]
          refine serves_skip ?_
          rw [handleBulk, hvalid]
          dsimp only
          rw [hpass]
          exact h
      | none =>
          rw [if_neg (by simp)]
          have hhandle : r.handleBulk env frame =
              if xfrFrameRequestsResponseContinuation frame = true then
                if r.chainActive then r.sendXfrChainChunk env (seqOf frame)
                else .reply r (r.commandFailed frame errBadLevelParameter)
              else if (r.settleChains frame).abortRefuses frame = true
                then .reply (r.settleChains frame) ((r.settleChains frame).commandFailed frame errCmdAborted)
                else (r.settleChains frame).command env frame dataLen := by
            rw [handleBulk, hvalid]
            dsimp only
            rw [hpass]
          by_cases hcontinue : xfrFrameRequestsResponseContinuation frame = true
          · rw [if_pos hcontinue] at hhandle ⊢
            rw [hhandle]
            refine continuation_serves env frame h ?_
            rw [xfrFrameRequestsResponseContinuation, hvalid] at hcontinue
            simp only [Bool.and_eq_true, beq_iff_eq] at hcontinue
            exact hcontinue.1.1.1
          · rw [if_neg hcontinue] at hhandle ⊢
            exact settled_serves env frame transfer dataLen hhandle

end Reader

/-! ### Whole runs -/

/-- What an event is to the response chain. A removal that ends an open session interrupts it; a poll
brings the packet it picks up, behind the removal that is due. -/
def Event.ask (r : Reader) : Event → Ask Byte
  | .tagDetected _ => .skip
  | .tagRemoved _ => if r.sess then .cut else .skip
  | .poll env packet =>
      match packet with
      | none => .skip
      | some pkt => (r.pollDeferredRemoval env.millis).reader.askOf env (pkt.take workBufSize)
  | .bulk env frame => r.askOf env frame
  | .abortRequest _ => .skip

def asks (history : List (Reader × Event)) : List (Ask Byte) := Machine.output (fun r e => [e.ask r]) history

/-- The data field and the chain parameter of the response to an event that loads a response or asks for
more of it. -/
def Event.served (r : Reader) (e : Event) : List (Frame × Byte) :=
  match e.ask r with
  | .load _ _ | .more _ => (e.turn r).responses.map fun rsp => (payloadOf rsp, u8At rsp 9)
  | .skip | .cut => []

def served (history : List (Reader × Event)) : List (Frame × Byte) :=
  Machine.output (fun r e => e.served r) history

namespace Reader

variable {r : Reader} {transfer : Option (Frame × Nat)}

/-- Without a session no transfer is open. -/
theorem Consistent.transfers_closed (h : r.Consistent) (hclosed : r.sess = false) (ht : r.Transfers transfer) :
    transfer = none := by
  cases transfer with
  | none => rfl
  | some open_ => exact absurd (ht.1.symm.trans (h.closed hclosed).2.2.1) (by decide)

theorem serves_closed {t : Turn} (h : r.Consistent) (ht : t.reader.Consistent) (hclosed : r.sess = false)
    (hclosed' : t.reader.sess = false) (htransfers : r.Transfers transfer) : Serves transfer t .skip := by
  obtain rfl := h.transfers_closed hclosed htransfers
  exact serves_skip (ht.closed hclosed').2.2.1

theorem onTagRemoved_serves (h : r.Consistent) (now : BitVec 32) (htransfers : r.Transfers transfer) :
    Serves transfer (r.onTagRemovedFromField now) (if r.sess then .cut else .skip) := by
  cases hsess : r.sess with
  | true =>
      rw [if_pos rfl, onTagRemovedFromField, if_neg (by simp [h.session_card hsess]), if_pos hsess]
      exact serves_cut rfl
  | false =>
      rw [if_neg Bool.false_ne_true]
      refine serves_closed h (h.onTagRemovedFromField now) hsess ?_ htransfers
      rw [onTagRemovedFromField, hsess]
      split
      · exact hsess
      · rw [if_neg Bool.false_ne_true]
        split <;> rfl

/-- A removal that is due finds no transfer open. -/
theorem pollDeferredRemoval_transfers (h : r.Consistent) (now : BitVec 32) (htransfers : r.Transfers transfer) :
    (r.pollDeferredRemoval now).reader.Transfers transfer ∧ (r.pollDeferredRemoval now).sent = [] := by
  unfold pollDeferredRemoval
  split
  · rename_i hdue
    obtain rfl := h.transfers_closed (h.deferred_removal hdue.1) htransfers
    exact ⟨rfl, rfl⟩
  · exact ⟨htransfers, rfl⟩

/-- What a turn is answered with is read off its transfers. -/
theorem answered_of_sent {t u : Turn} {ask : Ask Byte} (hsent : t.sent = u.sent) (h : u.Answered transfer ask) :
    t.Answered transfer ask := by
  have hresponses : t.responses = u.responses := by rw [Turn.responses, Turn.responses, hsent]
  cases ask with
  | skip => cases transfer <;> trivial
  | cut => cases transfer <;> trivial
  | load message sent => cases transfer <;> simpa only [Turn.Answered, Turn.Hands, hresponses] using h
  | more sent => cases transfer <;> simpa only [Turn.Answered, Turn.Hands, Turn.Refuses, hresponses] using h

/-- **The step lemma.** Every event does with the response chain what a sender of blocks does. -/
theorem turn_serves (h : r.Consistent) (htransfers : r.Transfers transfer) (e : Event) (hok : e.Allowed r) :
    Serves transfer (e.turn r) (e.ask r) := by
  cases e with
  | tagDetected kind =>
      obtain ⟨hkind, hclosed⟩ := hok
      exact serves_closed h (h.onTagDetected hkind hclosed) hclosed (onTagDetected_closed hclosed kind).1 htransfers
  | tagRemoved now => exact onTagRemoved_serves h now htransfers
  | poll env packet =>
      obtain ⟨hpolled, hquiet⟩ := pollDeferredRemoval_transfers h env.millis htransfers
      cases packet with
      | none => exact serves_skip hpolled
      | some pkt =>
          have hframe := handleBulk_serves env (pkt.take workBufSize) hpolled
          refine ⟨hframe.transfers, answered_of_sent ?_ hframe.answered⟩
          change (r.pollDeferredRemoval env.millis).sent ++ _ = _
          rw [hquiet, List.nil_append]
  | bulk env frame => exact handleBulk_serves env frame htransfers
  | abortRequest seq => exact serves_skip (by cases transfer <;> exact htransfers)

end Reader

/-- The response chain of the reader is the transfer its history leaves open. -/
theorem transfers_openAfter {history : List (Reader × Event)} {r : Reader} (hrun : lifecycle.Run history r) :
    r.Transfers (openAfter rspDataCap (asks history)) := by
  refine (Machine.Run.invariant (P := fun history r =>
    r.Consistent ∧ r.Transfers (openAfter rspDataCap (asks history))) ?_ ?_ hrun).2
  · exact ⟨Reader.consistent_reset, rfl⟩
  · intro history r e ⟨hc, htransfers⟩ hok
    refine ⟨(Reader.keeps_turn hc e hok).consistent, ?_⟩
    rw [asks, Machine.output_snoc, BlockTransfer.openAfter_snoc]
    exact (Reader.turn_serves hc htransfers e hok).transfers

/-- What an allowed event of a run is answered with. -/
theorem run_answered {history : List (Reader × Event)} {r : Reader} (hrun : lifecycle.Run history r) (e : Event)
    (hok : e.Allowed r) : (e.turn r).Answered (openAfter rspDataCap (asks history)) (e.ask r) :=
  (Reader.turn_serves (lifecycle_keeps hrun).1 (transfers_openAfter hrun) e hok).answered

theorem run_loads {history : List (Reader × Event)} {r : Reader} (hrun : lifecycle.Run history r) {e : Event}
    (hok : e.Allowed r) {message : Frame} {sent : Bool} (hask : e.ask r = .load message sent) :
    (e.turn r).Hands message 0 := by
  have h := run_answered hrun e hok
  rw [hask] at h
  cases hopen : openAfter rspDataCap (asks history) with
  | none => rwa [hopen] at h
  | some transfer => rwa [hopen] at h

theorem run_continues {history : List (Reader × Event)} {r : Reader} (hrun : lifecycle.Run history r) {e : Event}
    (hok : e.Allowed r) {sent : Bool} (hask : e.ask r = .more sent) {message : Frame} {k : Nat}
    (hwaiting : Waiting rspDataCap (asks history) message k) : (e.turn r).Hands message k := by
  have h := run_answered hrun e hok
  rwa [hask, (BlockTransfer.openAfter_eq_some_iff (by decide) _ _ _).mpr hwaiting] at h

theorem run_refuses {history : List (Reader × Event)} {r : Reader} (hrun : lifecycle.Run history r) {e : Event}
    (hok : e.Allowed r) {sent : Bool} (hask : e.ask r = .more sent)
    (hnone : ∀ message k, ¬ Waiting rspDataCap (asks history) message k) : (e.turn r).Refuses := by
  have h := run_answered hrun e hok
  rwa [hask, (BlockTransfer.openAfter_eq_none_iff (by decide) _).mpr hnone] at h

theorem served_of_hands {r : Reader} {e : Event} {message : Frame} {k : Nat}
    (hask : (∃ m sent, e.ask r = .load m sent) ∨ ∃ sent, e.ask r = .more sent) (h : (e.turn r).Hands message k) :
    e.served r = [(block rspDataCap message k, chainParameter (level rspDataCap message k))] := by
  obtain ⟨rsp, hrsp, hdata, hlevel, -⟩ := h
  have hserved : e.served r = (e.turn r).responses.map fun rsp => (payloadOf rsp, u8At rsp 9) := by
    rcases hask with ⟨m, sent, hask⟩ | ⟨sent, hask⟩ <;> rw [Event.served, hask]
  rw [hserved, hrsp, List.map_singleton, hdata, hlevel]

/-- The first part of a run with its last event taken off. -/
theorem exists_snoc_of_append {history before part : List (Reader × Event)} {r : Reader} {e : Event}
    (hparts : history ++ [(r, e)] = before ++ part) (hpart : part ≠ []) :
    ∃ init, part = init ++ [(r, e)] ∧ history = before ++ init := by
  obtain rfl | ⟨init, last, rfl⟩ := part.eq_nil_or_concat
  · exact absurd rfl hpart
  · rw [List.concat_eq_append, ← List.append_assoc] at hparts
    obtain ⟨rfl, hlast⟩ := List.append_inj' hparts rfl
    obtain rfl := (List.cons.inj hlast).1
    exact ⟨init, List.concat_eq_append, rfl⟩

/-- A part of a run that loads a response and asks for more of it has been given its first blocks. -/
theorem served_part {history : List (Reader × Event)} {r : Reader} (hrun : lifecycle.Run history r) :
    ∀ (before part : List (Reader × Event)) (message : Frame) (rest : List (Ask Byte)), history = before ++ part →
      asks part = .load message true :: rest → Continues rest → moreCount rest < blockCount rspDataCap message →
      served part = (List.range (moreCount rest + 1)).map fun k =>
        (block rspDataCap message k, chainParameter (level rspDataCap message k)) := by
  induction hrun with
  | start =>
      intro before part message rest hparts hasks
      obtain ⟨-, rfl⟩ := List.append_eq_nil_iff.mp hparts.symm
      exact absurd hasks (by simp [asks])
  | step hrun hok ih =>
      rename_i history r e
      intro before part message rest hparts hasks hcont hcount
      obtain ⟨init, rfl, rfl⟩ := exists_snoc_of_append hparts (by rintro rfl; simp [asks] at hasks)
      rw [asks, Machine.output_snoc, ← asks] at hasks
      rw [served, Machine.output_snoc, ← served]
      obtain rfl | ⟨rest, last, rfl⟩ := rest.eq_nil_or_concat
      · -- the part is the one event that loads the response
        have hasks : asks init ++ [e.ask r] = [] ++ [.load message true] := hasks
        obtain ⟨hinit, hask⟩ := List.append_inj' hasks rfl
        have hask : e.ask r = .load message true := (List.cons.inj hask).1
        have hempty : init = [] := by
          cases init with
          | nil => rfl
          | cons x init => simp [asks, Machine.output] at hinit
        subst hempty
        rw [served_of_hands (.inl ⟨_, _, hask⟩) (run_loads hrun hok hask)]
        rfl
      · rw [List.concat_eq_append, ← List.cons_append] at hasks
        rw [List.concat_eq_append] at hcont hcount ⊢
        obtain ⟨hinit, hask⟩ := List.append_inj' hasks rfl
        have hask : e.ask r = last := (List.cons.inj hask).1
        obtain ⟨hcont', hlast⟩ := BlockTransfer.continues_snoc.mp hcont
        rcases hlast with rfl | rfl
        · rw [BlockTransfer.moreCount_snoc_skip] at hcount ⊢
          have hnothing : e.served r = [] := by rw [Event.served, hask]
          rw [hnothing, List.append_nil, ih before init message rest rfl hinit hcont' hcount]
        · rw [BlockTransfer.moreCount_snoc_more] at hcount ⊢
          have hwaiting : Waiting rspDataCap (asks (before ++ init)) message (moreCount rest + 1) := by
            refine ⟨asks before, rest, ?_, hcont', rfl, hcount⟩
            rw [asks, Machine.output, List.flatMap_append, ← hinit]
            rfl
          rw [served_of_hands (.inr ⟨_, hask⟩) (run_continues hrun hok hask hwaiting),
            ih before init message rest rfl hinit hcont' (by omega), List.range_succ (n := moreCount rest + 1),
            List.map_append, List.map_singleton]

/-- **Response chaining.** In every state of every run: an event that loads a response is answered with its
first block; a continuation request is answered with the next block of the response that the asks so far
leave open, and it is refused, without data, when they leave none open. Over a part of a run that loads a
response and asks for more of it, the blocks come in order, and when all are asked for their data make up
the response. Blocks hold at most `rspDataCap` bytes, those behind the first are not empty, and their chain
parameters are SINGLE for an only block, else BEGIN, MIDDLE and END. -/
theorem response_chaining (history : List (Reader × Event)) (r : Reader) (hrun : lifecycle.Run history r) :
    (∀ e : Event, e.Allowed r →
      (∀ message sent, e.ask r = .load message sent → (e.turn r).Hands message 0) ∧
      (∀ sent, e.ask r = .more sent →
        (∀ message k, Waiting rspDataCap (asks history) message k → (e.turn r).Hands message k) ∧
        ((∀ message k, ¬ Waiting rspDataCap (asks history) message k) → (e.turn r).Refuses))) ∧
    (∀ before part message rest, history = before ++ part → asks part = .load message true :: rest →
      Continues rest → moreCount rest < blockCount rspDataCap message →
      (served part = (List.range (moreCount rest + 1)).map fun k =>
        (block rspDataCap message k, chainParameter (level rspDataCap message k))) ∧
      (moreCount rest + 1 = blockCount rspDataCap message → (served part).flatMap Prod.fst = message)) ∧
    ∀ (message : Frame) (k : Nat), k < blockCount rspDataCap message →
      (block rspDataCap message k).length ≤ rspDataCap ∧ (k ≠ 0 → block rspDataCap message k ≠ []) ∧
      chainParameter (level rspDataCap message k) =
        if blockCount rspDataCap message = 1 then xfrLevelSingle
        else if k = 0 then xfrLevelChainBegin
        else if k + 1 = blockCount rspDataCap message then xfrLevelChainEnd else xfrLevelChainMiddle := by
  refine ⟨fun e hok => ⟨fun message sent hask => run_loads hrun hok hask, fun sent hask => ?_⟩, ?_, ?_⟩
  · exact ⟨fun message k hwaiting => run_continues hrun hok hask hwaiting, run_refuses hrun hok hask⟩
  · intro before part message rest hparts hasks hcont hcount
    have hserved := served_part hrun before part message rest hparts hasks hcont hcount
    refine ⟨hserved, fun hall => ?_⟩
    rw [hserved, List.flatMap_map, hall]
    exact BlockTransfer.blocks_flatten (by decide)
  · intro message k hk
    refine ⟨BlockTransfer.block_length_le k, fun hne => ?_, ?_⟩
    · obtain ⟨j, rfl⟩ := Nat.exists_eq_succ_of_ne_zero hne
      exact BlockTransfer.block_ne_nil (by decide) hk
    · rw [BlockTransfer.level_eq (by decide) hk]
      split_ifs <;> rfl

theorem run_bulk {history : List (Reader × Event)} {r : Reader} (hrun : lifecycle.Run history r) (env : BulkEnv)
    (frame : Frame) : lifecycle.Run (history ++ [(r, .bulk env frame)]) (r.handleBulk env frame).reader :=
  .step hrun trivial

/-- A card that answers with 700 bytes, and the command that makes it. -/
def longResponse : Frame := List.replicate 698 0xA5 ++ [0x90, 0x00]
def longEnv : BulkEnv := { BulkEnv.still with apduExchange := fun _ _ => longResponse }
def getDataFrame : Frame := [0x6F, 4, 0, 0, 0, 0, 2, 0, 0, 0, 0x00, 0xCA, 0x00, 0x00]
def continueFrame : Frame := [0x6F, 0, 0, 0, 0, 0, 3, 0, 0x10, 0]

/-- The reader with the first block of the response given. -/
def serving : Reader := (poweredOn.handleBulk longEnv getDataFrame).reader

def servingHistory : List (Reader × Event) := poweredOnHistory ++ [(poweredOn, .bulk longEnv getDataFrame)]

theorem serving_run : lifecycle.Run servingHistory serving := run_bulk poweredOn_run longEnv getDataFrame

theorem response_chaining_getData : (Event.turn serving (.bulk longEnv continueFrame)).Hands longResponse 1 := by
  have hasks : asks servingHistory = [.skip, .cut] ++ [.load longResponse true] := by decide +kernel
  have hask : Event.ask serving (.bulk longEnv continueFrame) = .more true := by decide
  obtain ⟨hevents, -⟩ := response_chaining servingHistory serving serving_run
  refine ((hevents (.bulk longEnv continueFrame) trivial).2 true hask).1 longResponse 1 ?_
  exact ⟨[.skip, .cut], [], hasks, by simp [Continues], rfl, by decide +kernel⟩

/-- A status request that the checks refuse does not end the transfer: the next block is given behind it. -/
theorem refused_command_keeps_response :
    ¬ ∀ (history : List (Reader × Event)) (r : Reader), lifecycle.Run history r → r.sess = true →
      ∀ (env : BulkEnv) (other more : Frame), commandOf other ≠ .xfr → bulkHeaderLen ≤ other.length →
        xfrFrameRequestsResponseContinuation more = true →
        ((r.handleBulk env other).reader.handleBulk env more).Refuses := by
  intro h
  obtain ⟨rsp, hrsp, hempty, -⟩ := h servingHistory serving serving_run (by decide +kernel) longEnv
    reservedStatusFrame continueFrame (by decide) (by decide) (by decide)
  have hdata : ((serving.handleBulk longEnv reservedStatusFrame).reader.handleBulk longEnv continueFrame).responses.map
      payloadOf = [block rspDataCap longResponse 1] := by decide +kernel
  rw [hrsp, List.map_singleton, hempty] at hdata
  exact absurd hdata (by decide +kernel)

end NeroReader.Ccid
