import NeroReader.CcidLifecycle
import NeroReader.Reassembly

/-!
Command chaining. Each frame is a piece of the stream of host commands: a whole command, a part of a
chained one, an interruption, or nothing that the chain takes notice of. The command chain of the
reader reassembles the stream, so the payloads it dispatches are those its pieces complete.
-/

namespace NeroReader.Ccid

open IsoDep HostApdu
open Storage (Word TagKind)
open Reassembly (Piece openStep delivered openAfter Completes)

namespace Reader

variable (r : Reader) (env : BulkEnv) (frame : Frame)

/-- The piece of the command stream that a frame is in the state it meets. A frame that the checks
refuse, a continuation request, an XfrBlock without a session or behind an abort request and an empty
part of a chain are skipped. -/
def pieceOf : Piece Byte :=
  match bulkFrameValidate frame with
  | none => .skip
  | some dataLen =>
      if (r.bulkRefusal frame dataLen).isSome = true ∨ xfrFrameRequestsResponseContinuation frame = true then
        .skip
      else if commandOf frame ≠ .xfr then .cut
      else if r.abortRefuses frame = true ∨ r.sess = false then .skip
      else if xfrLevelParameter frame = xfrLevelSingle.setWidth 16 then .single (payloadOf frame)
      else if payloadOf frame = [] then .skip
      else if xfrLevelParameter frame = xfrLevelChainBegin.setWidth 16 then .first (payloadOf frame)
      else if xfrLevelParameter frame = xfrLevelChainMiddle.setWidth 16 then .middle (payloadOf frame)
      else .last (payloadOf frame)

/-- The open command chain. -/
def pending : Option Frame := if r.cmdChainActive then some r.cmdChainBuf else none

/-- A turn that leaves the command chain alone and dispatches nothing. -/
structure KeepsChain (r : Reader) (t : Turn) : Prop where
  active : t.reader.cmdChainActive = r.cmdChainActive
  buf : t.reader.cmdChainBuf = r.cmdChainBuf
  dispatched : t.dispatched = []

variable {r}

theorem pending_eq {s : Reader} (hactive : s.cmdChainActive = r.cmdChainActive)
    (hbuf : s.cmdChainBuf = r.cmdChainBuf) : s.pending = r.pending := by
  rw [pending, pending, hactive, hbuf]

theorem KeepsChain.pending {t : Turn} (h : r.KeepsChain t) : t.reader.pending = r.pending :=
  pending_eq h.active h.buf

theorem pending_none (h : r.cmdChainActive = false) : r.pending = none := by
  rw [Reader.pending, h]
  exact if_neg Bool.false_ne_true

theorem pending_some (h : r.cmdChainActive = true) : r.pending = some r.cmdChainBuf := by
  rw [Reader.pending, h]
  exact if_pos rfl

/-! ### Parts of the handler that do not touch the chain -/

theorem keepsChain_sendXfrChainChunk (seq : Byte) : r.KeepsChain (r.sendXfrChainChunk env seq) := by
  unfold sendXfrChainChunk
  split
  · exact ⟨rfl, rfl, rfl⟩
  dsimp only
  split <;> exact ⟨rfl, rfl, rfl⟩

theorem keepsChain_sendXfrDataResponse (seq : Byte) (data : Frame) :
    r.KeepsChain (r.sendXfrDataResponse env seq data) := by
  unfold sendXfrDataResponse
  dsimp only
  split
  · exact ⟨rfl, rfl, rfl⟩
  split
  · exact ⟨rfl, rfl, rfl⟩
  · obtain ⟨hactive, hbuf, hdispatched⟩ := keepsChain_sendXfrChainChunk (r := { r.clearXfrResponseChain with
      chainBuf := data, chainOff := 0, chainActive := true }) env seq
    exact ⟨hactive, hbuf, hdispatched⟩

theorem keepsChain_xfrFinish (rsp : Frame) : r.KeepsChain (r.xfrFinish env frame rsp) := by
  unfold xfrFinish
  split
  · exact ⟨rfl, rfl, rfl⟩
  · exact keepsChain_sendXfrDataResponse env _ rsp

/-- The chain behind a complete command, and the one payload it dispatches. -/
theorem xfrDispatch_chain (apdu : Frame) :
    (r.xfrDispatch env frame apdu).dispatched = [apdu] ∧
      (r.xfrDispatch env frame apdu).reader.pending =
        if xfrLevelParameter frame = xfrLevelChainEnd.setWidth 16 then none else r.pending := by
  obtain ⟨app, deferred, until_, seq, request, heq⟩ := r.xfrHandled_eq env frame apdu
  have hfinish := keepsChain_xfrFinish (r := (r.xfrHandled env frame apdu).1) env frame
    (r.xfrHandled env frame apdu).2
  refine ⟨?_, ?_⟩
  · change [apdu] ++ (xfrFinish _ env frame _).dispatched = [apdu]
    rw [hfinish.dispatched, List.append_nil]
  · change (xfrFinish _ env frame _).reader.pending = _
    rw [hfinish.pending, heq]
    dsimp only
    split
    · exact pending_none rfl
    · rfl

/-! ### Commands other than XfrBlock -/

/-- No chain is open, and nothing was dispatched. -/
def Idle (t : Turn) : Prop := t.reader.cmdChainActive = false ∧ t.dispatched = []

theorem idle_powerOnDone (h : r.cmdChainActive = false) (seq : Byte) (atr : Frame) :
    Idle (r.powerOnDone env seq atr) := by
  obtain ⟨deferred, until_, heq⟩ :=
    noteHostSessionActivity_eq { r with sess := true, owner := .ccid } env.millis
  refine ⟨?_, rfl⟩
  change (noteHostSessionActivity _ _).cmdChainActive = false
  rw [heq]
  exact h

theorem idle_iccOn (h : r.cmdChainActive = false) : Idle (r.iccOn env frame) := by
  unfold iccOn
  dsimp only
  split
  · exact ⟨h, rfl⟩
  split
  · exact ⟨rfl, rfl⟩
  split
  · unfold powerOnType4
    dsimp only
    cases (if env.openIsoSession = true then copyAtsAsPcscAtr env.ats rspDataCap else none) with
    | none => exact ⟨rfl, rfl⟩
    | some atr =>
        exact idle_powerOnDone (r := { (r.teardownSession.beginTimeExtension (seqOf frame)).setProtocol
          protocolNumT1 with isoSessionOpen := true, type4SecurityKeyApp := false }) env rfl (seqOf frame) atr
  · unfold powerOnStorage
    dsimp only
    split
    · exact ⟨rfl, rfl⟩
    · split
      · exact ⟨rfl, rfl⟩
      · exact idle_powerOnDone env rfl _ _

theorem idle_params (h : r.cmdChainActive = false) : Idle (r.params env frame) := by
  unfold params
  dsimp only
  refine ⟨?_, rfl⟩
  generalize (if r.cardPresent = true ∧ commandOf frame = .resetParams then protocolNumT1
    else if r.cardPresent = true ∧ commandOf frame = .setParams ∧
      (if r.cardPresent = false then errIccMute else paramErrorForRequest frame) = 0 then u8At frame 7
    else r.protocolNum) = protocolNum
  obtain ⟨deferred, until_, heq⟩ := noteHostSessionActivity_eq (r.setProtocol protocolNum) env.millis
  change (noteHostSessionActivity _ _).cmdChainActive = false
  rw [heq]
  exact h

theorem idle_abort : Idle (r.abort frame) := by
  refine ⟨?_, rfl⟩
  change (clearAbortRequest _ _ _).cmdChainActive = false
  unfold clearAbortRequest
  split <;> rfl

theorem idle_command (h : r.cmdChainActive = false) (hcmd : commandOf frame ≠ .xfr) (dataLen : Nat) :
    Idle (r.command env frame dataLen) := by
  unfold command
  cases hc : commandOf frame with
  | xfr => exact absurd hc hcmd
  | iccOn => exact idle_iccOn env frame h
  | iccOff => exact ⟨rfl, rfl⟩
  | abort => exact idle_abort frame
  | getParams => exact idle_params env frame h
  | resetParams => exact idle_params env frame h
  | setParams => exact idle_params env frame h
  | slotStatus => exact ⟨h, rfl⟩
  | iccClock => exact ⟨h, rfl⟩
  | t0Apdu => exact ⟨h, rfl⟩
  | mechanical => exact ⟨h, rfl⟩
  | secure => exact ⟨h, rfl⟩
  | escape => exact ⟨h, rfl⟩
  | setRateClock => exact ⟨h, rfl⟩
  | other => exact ⟨h, rfl⟩

/-! ### XfrBlocks -/

/-- Appending a part is the reassembly of a first or a middle piece; it is accepted when the chain is
open behind it. -/
theorem append_pending {data : Frame} (hdata : data ≠ []) (beginChain : Bool) :
    (r.appendXfrCommandChain data beginChain).1.pending =
      openStep extendedRspBufSize r.pending (if beginChain then .first data else .middle data) ∧
    (r.appendXfrCommandChain data beginChain).2 =
      (r.appendXfrCommandChain data beginChain).1.pending.isSome := by
  unfold appendXfrCommandChain
  rw [if_neg hdata]
  dsimp only
  cases beginChain with
  | true =>
      have hcleared : r.clearXfrCommandChain.cmdChainBuf.length + data.length = data.length := Nat.zero_add _
      rw [if_pos rfl, if_neg (by simp), if_pos rfl, hcleared, openStep]
      split
      · rename_i hlong
        rw [if_neg (Nat.not_le.mpr hlong)]
        exact ⟨rfl, rfl⟩
      · rename_i hfits
        rw [if_pos (Nat.not_lt.mp hfits)]
        exact ⟨rfl, rfl⟩
  | false =>
      rw [if_neg Bool.false_ne_true, if_neg Bool.false_ne_true]
      cases hactive : r.cmdChainActive with
      | false =>
          rw [if_pos ⟨rfl, rfl⟩, pending_none hactive]
          exact ⟨rfl, rfl⟩
      | true =>
          rw [if_neg (by simp), pending_some hactive]
          simp only [openStep]
          split
          · rename_i hlong
            rw [if_neg (Nat.not_le.mpr hlong)]
            exact ⟨rfl, rfl⟩
          · rename_i hfits
            rw [if_pos (Nat.not_lt.mp hfits)]
            exact ⟨rfl, rfl⟩

/-- What `t` does with the command chain is what the reassembly does with `piece`. -/
def Reassembles (r : Reader) (t : Turn) (piece : Piece Byte) : Prop :=
  t.reader.pending = openStep extendedRspBufSize r.pending piece ∧
    t.dispatched = delivered extendedRspBufSize r.pending piece

theorem reassembles_skip {t : Turn} (h : r.KeepsChain t) : r.Reassembles t .skip := by
  refine ⟨?_, ?_⟩
  · rw [h.pending]
    cases r.pending <;> rfl
  · rw [h.dispatched]
    cases r.pending <;> rfl

theorem reassembles_cut {t : Turn} (h : Idle t) : r.Reassembles t .cut := by
  refine ⟨?_, ?_⟩
  · rw [pending_none h.1]
    cases r.pending <;> rfl
  · rw [h.2]
    cases r.pending <;> rfl

theorem xfr_single (hsess : r.sess = true) (hlevel : xfrLevelParameter frame = xfrLevelSingle.setWidth 16) :
    r.Reassembles (r.xfr env frame) (.single (payloadOf frame)) := by
  unfold xfr
  dsimp only
  rw [if_neg (by simp [hsess]), if_pos hlevel]
  cases hactive : r.cmdChainActive with
  | true =>
      rw [if_pos rfl, Reassembles, pending_some hactive]
      exact ⟨rfl, rfl⟩
  | false =>
      obtain ⟨hdispatched, hpending⟩ := xfrDispatch_chain (r := r) env frame (payloadOf frame)
      rw [if_neg Bool.false_ne_true, Reassembles, hdispatched, hpending, pending_none hactive, hlevel]
      exact ⟨rfl, rfl⟩

/-- An empty part is refused and changes nothing. -/
theorem xfr_empty (hsess : r.sess = true) (hlevel : xfrLevelParameter frame ≠ xfrLevelSingle.setWidth 16)
    (hdata : payloadOf frame = []) : r.Reassembles (r.xfr env frame) .skip := by
  have happend : ∀ b, r.appendXfrCommandChain (payloadOf frame) b = (r, false) := fun _ => if_pos hdata
  refine reassembles_skip ?_
  unfold xfr
  dsimp only
  rw [if_neg (by simp [hsess]), if_neg hlevel, happend]
  exact ⟨rfl, rfl, rfl⟩

/-- A part that opens or continues the chain. -/
theorem xfr_part (begins : Bool) (hsess : r.sess = true)
    (hlevel : xfrLevelParameter frame =
      (if begins then xfrLevelChainBegin else xfrLevelChainMiddle).setWidth 16)
    (hdata : payloadOf frame ≠ []) :
    r.Reassembles (r.xfr env frame) (if begins then .first (payloadOf frame) else .middle (payloadOf frame)) := by
  have hsingle : xfrLevelParameter frame ≠ xfrLevelSingle.setWidth 16 := by
    rw [hlevel]
    cases begins <;> decide
  have hbegin : (xfrLevelParameter frame == xfrLevelChainBegin.setWidth 16) = begins := by
    rw [hlevel]
    cases begins <;> decide
  have hpart : xfrLevelParameter frame = xfrLevelChainBegin.setWidth 16 ∨
      xfrLevelParameter frame = xfrLevelChainMiddle.setWidth 16 := by
    rw [hlevel]
    cases begins <;> decide
  obtain ⟨hpending, -⟩ := append_pending (r := r) hdata begins
  have hnothing : delivered extendedRspBufSize r.pending
      (if begins then .first (payloadOf frame) else .middle (payloadOf frame)) = [] := by
    cases begins <;> cases r.pending <;> rfl
  unfold xfr Reassembles
  dsimp only
  rw [if_neg (by simp [hsess]), if_neg hsingle, hbegin, hnothing, ← hpending]
  generalize r.appendXfrCommandChain (payloadOf frame) begins = result
  obtain ⟨s, accepted⟩ := result
  cases accepted with
  | false => exact ⟨rfl, rfl⟩
  | true =>
      dsimp only
      rw [if_pos hpart]
      exact ⟨rfl, rfl⟩

/-- The last part: the whole chain is dispatched, and no chain is open afterwards. -/
theorem xfr_last (hsess : r.sess = true) (hlevel : xfrLevelParameter frame = xfrLevelChainEnd.setWidth 16)
    (hdata : payloadOf frame ≠ []) : r.Reassembles (r.xfr env frame) (.last (payloadOf frame)) := by
  have hbegin : (xfrLevelParameter frame == xfrLevelChainBegin.setWidth 16) = false := by
    rw [hlevel]
    decide
  obtain ⟨hpending, haccepted⟩ := append_pending (r := r) hdata false
  rw [if_neg Bool.false_ne_true] at hpending
  have hclosed : openStep extendedRspBufSize r.pending (.last (payloadOf frame)) = none := by
    cases r.pending <;> rfl
  have hdelivered : delivered extendedRspBufSize r.pending (.last (payloadOf frame)) =
      (openStep extendedRspBufSize r.pending (.middle (payloadOf frame))).toList := by
    cases r.pending with
    | none => rfl
    | some acc =>
        simp only [delivered, openStep]
        split <;> rfl
  unfold xfr Reassembles
  dsimp only
  rw [if_neg (by simp [hsess]), if_neg (by rw [hlevel]; decide), hbegin, hclosed, hdelivered, ← hpending]
  generalize r.appendXfrCommandChain (payloadOf frame) false = result at haccepted ⊢
  obtain ⟨s, accepted⟩ := result
  dsimp only at haccepted ⊢
  cases hactive : s.cmdChainActive with
  | false =>
      rw [pending_none hactive] at haccepted ⊢
      rw [haccepted]
      exact ⟨pending_none hactive, rfl⟩
  | true =>
      rw [pending_some hactive] at haccepted ⊢
      rw [haccepted]
      dsimp only [Option.isSome_some]
      rw [if_neg (by rw [hlevel]; decide)]
      obtain ⟨hdispatched, hpending'⟩ := xfrDispatch_chain (r := s) env frame s.cmdChainBuf
      rw [hdispatched, hpending', if_pos hlevel]
      exact ⟨rfl, rfl⟩

/-! ### One frame -/

theorem Reassembles.of_pending {s : Reader} {t : Turn} {piece : Piece Byte} (h : s.Reassembles t piece)
    (hpending : s.pending = r.pending) : r.Reassembles t piece := by
  rw [Reassembles, ← hpending]
  exact h

/-- An XfrBlock takes the command chain as it finds it. -/
theorem settleChains_xfr (hcmd : commandOf frame = .xfr) :
    r.settleChains frame = if r.chainActive = true then r.clearXfrResponseChain else r :=
  if_neg (fun h => h.1 hcmd)

/-- Any other command ends it. -/
theorem settleChains_other (hcmd : commandOf frame ≠ .xfr) : (r.settleChains frame).cmdChainActive = false := by
  unfold settleChains
  dsimp only
  generalize (if r.chainActive = true then r.clearXfrResponseChain else r) = s
  split
  · rfl
  · rename_i hno
    exact Bool.eq_false_iff.mpr fun hactive => hno ⟨hcmd, hactive⟩

/-- An XfrBlock that is not refused is a whole command or a part of a chained one, if it does not ask for
the rest of a response. -/
theorem xfrLevel_cases {dataLen : Nat} (hvalid : bulkFrameValidate frame = some dataLen)
    (hcmd : commandOf frame = .xfr) (hpass : r.bulkRefusal frame dataLen = none)
    (hcontinue : xfrFrameRequestsResponseContinuation frame = false) :
    xfrLevelParameter frame = xfrLevelSingle.setWidth 16 ∨
      xfrLevelParameter frame = xfrLevelChainBegin.setWidth 16 ∨
      xfrLevelParameter frame = xfrLevelChainMiddle.setWidth 16 ∨
      xfrLevelParameter frame = xfrLevelChainEnd.setWidth 16 := by
  have hlevel : xfrLevelError (xfrLevelParameter frame) dataLen = 0 := by
    by_contra herr
    unfold bulkRefusal at hpass
    dsimp only at hpass
    split at hpass
    · simp at hpass
    split at hpass
    · simp at hpass
    split at hpass
    · simp at hpass
    rw [if_pos ⟨hcmd, herr⟩] at hpass
    simp at hpass
  unfold xfrLevelError at hlevel
  split at hlevel
  · rename_i hlevel16
    split at hlevel
    · rename_i hempty
      -- the level word of a continuation request, byte by byte
      have hword := congrArg BitVec.toNat hlevel16
      rw [xfrLevelParameter, Storage.bigEndian_toNat] at hword
      change _ = 16 at hword
      have hhi : u8At frame 9 = 0 := by bv_omega
      have hlo : u8At frame 8 = xfrResponseContinue := by
        unfold xfrResponseContinue
        bv_omega
      have hyes : xfrFrameRequestsResponseContinuation frame = true := by
        unfold xfrFrameRequestsResponseContinuation
        rw [hvalid]
        dsimp only
        rw [hcmd, hempty, hhi, hlo]
        rfl
      exact absurd (hyes.symm.trans hcontinue) (by decide)
    · exact absurd hlevel (by decide)
  split at hlevel
  · assumption
  · exact absurd hlevel (by decide)

/-- An XfrBlock that reaches the switch. -/
theorem xfr_reassembles (hsess : r.sess = true)
    (hlevel : xfrLevelParameter frame = xfrLevelSingle.setWidth 16 ∨
      xfrLevelParameter frame = xfrLevelChainBegin.setWidth 16 ∨
      xfrLevelParameter frame = xfrLevelChainMiddle.setWidth 16 ∨
      xfrLevelParameter frame = xfrLevelChainEnd.setWidth 16) :
    r.Reassembles (r.xfr env frame)
      (if xfrLevelParameter frame = xfrLevelSingle.setWidth 16 then .single (payloadOf frame)
      else if payloadOf frame = [] then .skip
      else if xfrLevelParameter frame = xfrLevelChainBegin.setWidth 16 then .first (payloadOf frame)
      else if xfrLevelParameter frame = xfrLevelChainMiddle.setWidth 16 then .middle (payloadOf frame)
      else .last (payloadOf frame)) := by
  split
  · exact xfr_single env frame hsess (by assumption)
  rename_i hsingle
  split
  · exact xfr_empty env frame hsess hsingle (by assumption)
  rename_i hdata
  split
  · exact xfr_part env frame true hsess (by assumption) hdata
  rename_i hbegin
  split
  · exact xfr_part env frame false hsess (by assumption) hdata
  rename_i hmiddle
  obtain hlevel | hlevel | hlevel | hlevel := hlevel
  · exact absurd hlevel hsingle
  · exact absurd hlevel hbegin
  · exact absurd hlevel hmiddle
  · exact xfr_last env frame hsess hlevel hdata

/-- **One bulk frame** does to the command chain what the reassembly does with its piece. -/
theorem handleBulk_reassembles : r.Reassembles (r.handleBulk env frame) (r.pieceOf frame) := by
  unfold handleBulk pieceOf
  cases hvalid : bulkFrameValidate frame with
  | none =>
      refine reassembles_skip ?_
      dsimp only
      split <;> exact ⟨rfl, rfl, rfl⟩
  | some dataLen =>
      dsimp only
      cases hpass : r.bulkRefusal frame dataLen with
      | some refusal =>
          rw [if_pos (Or.inl (by rfl))]
          exact reassembles_skip ⟨rfl, rfl, rfl⟩
      | none =>
          dsimp only
          cases hcontinue : xfrFrameRequestsResponseContinuation frame with
          | true =>
              rw [if_pos (Or.inr rfl), if_pos rfl]
              refine reassembles_skip ?_
              split
              · exact keepsChain_sendXfrChainChunk env _
              · exact ⟨rfl, rfl, rfl⟩
          | false =>
              have hreaches : ¬ ((none : Option Response).isSome = true ∨ false = true) := by decide
              rw [if_neg Bool.false_ne_true, if_neg hreaches]
              by_cases hcmd : commandOf frame = .xfr
              · rw [if_neg (not_not_intro hcmd), settleChains_xfr frame hcmd]
                have hsame : ∃ s : Reader, (if r.chainActive = true then r.clearXfrResponseChain else r) = s ∧
                    s.pending = r.pending ∧ s.abortRefuses frame = r.abortRefuses frame ∧ s.sess = r.sess := by
                  split <;> exact ⟨_, rfl, rfl, rfl, rfl⟩
                obtain ⟨s, hs, hpending, hrefuses, hsess⟩ := hsame
                rw [hs, ← hrefuses, ← hsess]
                refine Reassembles.of_pending ?_ hpending
                cases habort : s.abortRefuses frame with
                | true =>
                    rw [if_pos rfl, if_pos (Or.inl rfl)]
                    exact reassembles_skip ⟨rfl, rfl, rfl⟩
                | false =>
                    rw [if_neg Bool.false_ne_true]
                    have hswitch : s.command env frame dataLen = s.xfr env frame := by
                      unfold command
                      rw [hcmd]
                    rw [hswitch]
                    cases hopen : s.sess with
                    | false =>
                        rw [if_pos (Or.inr rfl)]
                        refine reassembles_skip ?_
                        unfold xfr
                        dsimp only
                        rw [if_pos hopen]
                        exact ⟨rfl, rfl, rfl⟩
                    | true =>
                        rw [if_neg (by simp)]
                        exact xfr_reassembles env frame hopen (xfrLevel_cases frame hvalid hcmd hpass hcontinue)
              · rw [if_pos hcmd]
                have hidle := settleChains_other (r := r) frame hcmd
                refine reassembles_cut ?_
                split
                · exact ⟨hidle, rfl⟩
                · exact idle_command env frame hidle hcmd dataLen

end Reader

/-! ### Whole runs -/

/-- The piece of the command stream that an event is. A removal that ends an open session interrupts the
chain; a poll brings the packet it picks up, behind the removal that is due. -/
def Event.piece (r : Reader) : Event → Piece Byte
  | .tagDetected _ => .skip
  | .tagRemoved _ => if r.sess then .cut else .skip
  | .poll env packet =>
      match packet with
      | none => .skip
      | some pkt => (r.pollDeferredRemoval env.millis).reader.pieceOf (pkt.take workBufSize)
  | .bulk _ frame => r.pieceOf frame
  | .abortRequest _ => .skip

/-- The command stream of a history. -/
def pieces (history : List (Reader × Event)) : List (Piece Byte) :=
  Machine.output (fun r e => [e.piece r]) history

namespace Reader

variable {r : Reader}

/-- Without a session no chain is open. -/
theorem Consistent.pending_closed (h : r.Consistent) (hclosed : r.sess = false) : r.pending = none :=
  pending_none (h.closed hclosed).2.2.2

/-- A turn that ends without a session and met none, and dispatches nothing. -/
theorem reassembles_closed {t : Turn} (h : r.Consistent) (ht : t.reader.Consistent) (hclosed : r.sess = false)
    (hclosed' : t.reader.sess = false) (hdispatched : t.dispatched = []) : r.Reassembles t .skip := by
  refine ⟨?_, ?_⟩
  · rw [ht.pending_closed hclosed', h.pending_closed hclosed]
    rfl
  · rw [hdispatched, h.pending_closed hclosed]
    rfl

theorem onTagDetected_closed (hclosed : r.sess = false) (kind : TagKind) :
    (r.onTagDetected kind).reader.sess = false ∧ (r.onTagDetected kind).dispatched = [] := by
  have hsettled : (if r.removeDeferred = true then r.completeCardRemoval else Turn.silent r).reader.sess = false ∧
      (if r.removeDeferred = true then r.completeCardRemoval else Turn.silent r).dispatched = [] := by
    split
    · exact ⟨rfl, rfl⟩
    · exact ⟨hclosed, rfl⟩
  unfold onTagDetected
  dsimp only
  generalize (if r.removeDeferred = true then r.completeCardRemoval else Turn.silent r) = settled at hsettled ⊢
  obtain ⟨hsess, hdispatched⟩ := hsettled
  unfold Turn.andThen
  dsimp only
  rw [hdispatched]
  split
  · exact ⟨hsess, rfl⟩
  · exact ⟨hsess, rfl⟩

theorem onTagRemoved_reassembles (h : r.Consistent) (now : BitVec 32) :
    r.Reassembles (r.onTagRemovedFromField now) (if r.sess then .cut else .skip) := by
  cases hsess : r.sess with
  | true =>
      have hremoved : r.onTagRemovedFromField now = r.completeCardRemoval := by
        unfold onTagRemovedFromField
        rw [if_neg (by simp [h.session_card hsess]), if_pos hsess]
      rw [hremoved, if_pos rfl]
      exact reassembles_cut ⟨rfl, rfl⟩
  | false =>
      rw [if_neg Bool.false_ne_true]
      refine reassembles_closed h (h.onTagRemovedFromField now) hsess ?_ ?_ <;> unfold onTagRemovedFromField
      · split
        · exact hsess
        split
        · rfl
        split
        · exact hsess
        · rfl
      · split
        · rfl
        split
        · rfl
        split <;> rfl

/-- A removal that is due finds no chain open. -/
theorem pollDeferredRemoval_pending (h : r.Consistent) (now : BitVec 32) :
    (r.pollDeferredRemoval now).reader.pending = r.pending ∧ (r.pollDeferredRemoval now).dispatched = [] := by
  unfold pollDeferredRemoval
  split
  · rename_i hdue
    refine ⟨?_, rfl⟩
    rw [h.pending_closed (h.deferred_removal hdue.1)]
    exact pending_none rfl
  · exact ⟨rfl, rfl⟩

/-- **The step lemma.** Every event does to the command chain what the reassembly does with its piece. -/
theorem turn_reassembles (h : r.Consistent) (e : Event) (hok : e.Allowed r) : r.Reassembles (e.turn r) (e.piece r) := by
  cases e with
  | tagDetected kind =>
      obtain ⟨hkind, hclosed⟩ := hok
      obtain ⟨hsess, hdispatched⟩ := onTagDetected_closed hclosed kind
      exact reassembles_closed h (h.onTagDetected hkind hclosed) hclosed hsess hdispatched
  | tagRemoved now => exact onTagRemoved_reassembles h now
  | poll env packet =>
      obtain ⟨hpending, hdispatched⟩ := pollDeferredRemoval_pending h env.millis
      cases packet with
      | none =>
          have hpolled : (Event.turn r (.poll env none)).reader.pending = r.pending := hpending
          refine ⟨?_, ?_⟩
          · rw [hpolled]
            cases r.pending <;> rfl
          · change (r.pollDeferredRemoval env.millis).dispatched ++ [] = _
            rw [hdispatched]
            cases r.pending <;> rfl
      | some pkt =>
          have hframe := handleBulk_reassembles (r := (r.pollDeferredRemoval env.millis).reader) env
            (pkt.take workBufSize)
          refine Reassembles.of_pending (s := (r.pollDeferredRemoval env.millis).reader) ⟨hframe.1, ?_⟩ hpending
          change (r.pollDeferredRemoval env.millis).dispatched ++ _ = _
          rw [hdispatched]
          exact hframe.2
  | bulk env frame => exact handleBulk_reassembles env frame
  | abortRequest seq => exact reassembles_skip ⟨rfl, rfl, rfl⟩

end Reader

/-- The chain of the reader is the one its command stream leaves open. -/
theorem pending_eq_openAfter {history : List (Reader × Event)} {r : Reader} (hrun : lifecycle.Run history r) :
    r.pending = openAfter extendedRspBufSize (pieces history) := by
  refine (Machine.Run.invariant (P := fun history r =>
    r.Consistent ∧ r.pending = openAfter extendedRspBufSize (pieces history)) ?_ ?_ hrun).2
  · exact ⟨Reader.consistent_reset, rfl⟩
  · intro history r e ⟨hc, hpending⟩ hok
    refine ⟨(Reader.keeps_turn hc e hok).consistent, ?_⟩
    rw [pieces, Machine.output_snoc, Reassembly.openAfter_snoc]
    exact hpending ▸ (Reader.turn_reassembles hc e hok).1

/-- **Command chaining.** In every state of every run an event dispatches at most one payload, and it
dispatches one exactly when its piece completes that payload behind the command stream so far: a single
block while no chain is open, or the last part of a chain that the stream ends with, with nothing but
skipped frames among its parts. -/
theorem chained_commands (history : List (Reader × Event)) (r : Reader) (hrun : lifecycle.Run history r)
    (e : Event) (hok : e.Allowed r) :
    (e.turn r).dispatched.length ≤ 1 ∧
    ∀ payload, (e.turn r).dispatched = [payload] ↔
      Completes extendedRspBufSize (pieces history) (e.piece r) payload := by
  obtain ⟨hc, -⟩ := lifecycle_keeps hrun
  obtain ⟨-, hdispatched⟩ := Reader.turn_reassembles hc e hok
  rw [hdispatched, pending_eq_openAfter hrun]
  refine ⟨?_, fun payload => Reassembly.mem_delivered_iff _ _ _⟩
  obtain h | ⟨payload, h⟩ := Reassembly.delivered_cases extendedRspBufSize
    (openAfter extendedRspBufSize (pieces history)) (e.piece r)
  · rw [h]
    exact Nat.zero_le 1
  · rw [h]
    exact le_refl 1

/-- The first and the last part of a SELECT command, and a status request with a reserved byte set. -/
def beginFrame : Frame := [0x6F, 2, 0, 0, 0, 0, 2, 0, 1, 0, 0x00, 0xA4]
def endFrame : Frame := [0x6F, 2, 0, 0, 0, 0, 3, 0, 2, 0, 0x04, 0x00]
def reservedStatusFrame : Frame := [0x65, 0, 0, 0, 0, 0, 4, 1, 0, 0]

/-- The reader with a chain open. -/
def chained : Reader := (poweredOn.handleBulk .still beginFrame).reader

def chainedHistory : List (Reader × Event) := poweredOnHistory ++ [(poweredOn, .bulk .still beginFrame)]

theorem chained_run : lifecycle.Run chainedHistory chained := .step poweredOn_run trivial

theorem chained_commands_select :
    (Event.turn chained (.bulk .still endFrame)).dispatched = [[0x00, 0xA4, 0x04, 0x00]] := by
  obtain ⟨-, h⟩ := chained_commands chainedHistory chained chained_run (.bulk .still endFrame) trivial
  have hpieces : pieces chainedHistory = [.skip, .cut] ++ [.first [0x00, 0xA4]] := by decide
  have hpiece : Event.piece chained (.bulk .still endFrame) = .last [0x04, 0x00] := by decide
  refine (h _).mpr ?_
  rw [hpieces, hpiece]
  exact .chain (List.suffix_append _ _) (.first (by decide)) (by decide)

/-- A status request that the checks refuse does not end the chain: its parts are dispatched behind it. -/
theorem refused_command_keeps_chain :
    ¬ ∀ (history : List (Reader × Event)) (r : Reader), lifecycle.Run history r → r.sess = true →
      ∀ (env : BulkEnv) (other last : Frame), commandOf other ≠ .xfr → commandOf last = .xfr →
        xfrLevelParameter last = xfrLevelChainEnd.setWidth 16 →
        ((r.handleBulk env other).reader.handleBulk env last).dispatched = [] := by
  intro h
  have hnothing := h chainedHistory chained chained_run (by decide) .still reservedStatusFrame endFrame
    (by decide) (by decide) (by decide)
  have hdispatched : ((chained.handleBulk .still reservedStatusFrame).reader.handleBulk .still endFrame).dispatched =
      [[0x00, 0xA4, 0x04, 0x00]] := by decide
  exact absurd (hdispatched.symm.trans hnothing) (by decide)

end NeroReader.Ccid
