import NeroReader.IsoDepCard
import NeroReader.IsoDepExchange

/-!
A call of the I-block layer with a card at the other end. While the reader waits, the frame it has sent
is one that the card answers under the number the reader expects. An answer that interrupts the call ends
it with the number the reader had committed; every other answer of the card leaves both in step.
-/

namespace NeroReader.IsoDep

open Driver Picc

/-- The response bytes collected, and the reader's block number, in a waiting state. -/
def Wait.collected : Wait → Frame
  | .tx _ => []
  | .rx w => w.resp

def Wait.blockNum : Wait → Byte
  | .tx w => w.blockNum
  | .rx w => w.blockNum

/-- The number under which the reader expects the answer. -/
def Wait.number : Wait → Byte
  | .tx w => w.blockNum
  | .rx w => w.expectedBlock

namespace Call

variable (c : Call)

/-- The INF field of a received I-block is there and fits behind what is collected. -/
def takesInf (collected f : Frame) : Bool :=
  match iBlockInf f (c.session.pickInfOffset f) (u8At f 0) with
  | none => false
  | some inf => (appendInf c.respCap collected inf).isSome || inf.isEmpty

/-- **An answer that interrupts the call**: silence, an S(WTX) after the deadline or with the host's abort
pending, a block of the response that is too short or does not fit. -/
def Interrupts (w : Wait) (a : Answer) : Prop :=
  a.frame = [] ∨
    (isSWtx a.frame = true ∧ (c.frameTimeoutMs < a.elapsedMs ∨ a.abortPending = true)) ∨
    (isIBlock a.frame = true ∧ c.takesInf w.collected a.frame = false)

instance (w : Wait) (a : Answer) : Decidable (c.Interrupts w a) := inferInstanceAs (Decidable (_ ∨ _))

/-- The request echoes an S(WTX), or it is a block with this number, which is new to the card. -/
def IsNew (p : Picc) (q : Request) (number : Byte) : Prop :=
  isSWtx q.frame = true ∨ isSWtx q.frame = false ∧ numberOf q.frame = numberBit number ∧ InStep number p

/-- The card will answer the request under the number the waiting state expects. -/
def Answerable (p : Picc) (q : Request) : Wait → Prop
  | .tx w =>
      w.blkSent = w.blockNum &&& blockNumMask ∧
        p.Expects q.frame (numberBit w.blockNum) (if w.block.chainMore then .ack else .response)
  | .rx w => p.Expects q.frame (numberBit w.expectedBlock) .response

/-- The card will not take the request for one it knows, and answers it as the reader expects. -/
def Waits (p : Picc) (q : Request) (w : Wait) : Prop := IsNew p q w.number ∧ Answerable p q w

/-- What an action of the call means for the card, by whether the reader's number moved on from `committed`. -/
def Keeps (p : Picc) (moved : Bool) (committed : Byte) : Action → Prop
  | .send q w => Waits p q w ∧ if moved then InStep w.blockNum p else w.blockNum = committed
  | .stop r => InStep r.blockNum p ∧ moved = true

variable {c} {p p' : Picc} {committed : Byte}

/-! ### What the steps keep -/

/-- The head of the transmit loop: the next fragment carries a number that is new to the card. -/
theorem txFragment_keeps {off : Nat} {blockNum : Byte} {last : Answer} (hstep : InStep blockNum p)
    (hlast : isIBlock last.frame = false ∧ isSWtx last.frame = false ∨ last.frame = []) :
    Keeps p true committed (c.txFragment off blockNum last) := by
  have hincomplete : Keeps p true committed (finishIncomplete [] blockNum) := ⟨hstep, rfl⟩
  unfold txFragment
  split
  · dsimp only
    split
    · exact ⟨hstep, rfl⟩
    · rename_i block hblock
      obtain ⟨hI, hchain, hnum, -⟩ := buildIBlockTx_spec hblock
      have hnumber : numberOf block.wire = numberBit blockNum := by
        have hbits := (mask_eq_iff (u8At block.wire 0) (blockNum &&& blockNumMask)).mp hnum
        rw [numberBit_mask] at hbits
        exact hbits
      have hexpects := expects_iBlock hI (p := p) (fun hactive => by rw [hnumber]; exact hstep hactive)
      rw [hnumber, hchain] at hexpects
      exact ⟨⟨Or.inr ⟨isSWtx_of_isIBlock hI, hnumber, hstep⟩, rfl, hexpects⟩, hstep⟩
  · split
    · exact hincomplete
    · rename_i hnonempty
      rcases hlast with ⟨hI, hW⟩ | hnil
      · unfold rxFrame
        dsimp only
        rw [if_neg (by simp [hW]), if_neg (by simpa [isIBlock] using hI)]
        exact hincomplete
      · exact absurd (by simp [hnil]) hnonempty

/-- An S(WTX) that does not interrupt is echoed, and the card goes on to what it owes. -/
theorem answerWtx_keeps {errs : WtxErrs} {blockNum : Byte} {a : Answer} {owed : Owed} {number : Bool} (wait : Wait)
    (hwtx : isSWtx a.frame = true) (inf : rxHdrSkip (u8At a.frame 0) < a.frame.length)
    (multiplier : 1 ≤ u8At a.frame (rxHdrSkip (u8At a.frame 0)) &&& wtxmMask ∧
      u8At a.frame (rxHdrSkip (u8At a.frame 0)) &&& wtxmMask ≤ 59)
    (hnumber : p.number = number) (howes : p.owes = some owed)
    (hok : ¬ (c.frameTimeoutMs < a.elapsedMs ∨ a.abortPending = true))
    (hwait : ∀ q : Request, p.Expects q.frame number owed → Answerable p q wait) :
    Keeps p false wait.blockNum (c.answerWtx errs blockNum a wait) := by
  obtain ⟨hdeadline, habort⟩ := not_or.mp hok
  obtain ⟨echo, hecho⟩ := buildWtxEcho_isSome inf multiplier
  have hpcb : isSWtx echo = true := by
    rw [isSWtx, buildWtxEcho_pcb (one_le_rxHdrSkip _) hecho]
    exact hwtx
  unfold answerWtx
  dsimp only
  rw [if_neg hdeadline, if_neg habort, hecho]
  exact ⟨⟨Or.inl hpcb, hwait _ (hnumber ▸ expects_wtx hpcb howes)⟩, rfl⟩

/-- A block of the response toggles the expected number; a chained one is acknowledged with it. -/
theorem acceptIBlock_keeps {f resp : Frame} {expectedBlock blockNum : Byte}
    (hnumber : p.number = numberBit expectedBlock) :
    Keeps p (!isChained f) blockNum (c.acceptIBlock (u8At f 0) resp expectedBlock blockNum) := by
  have hstep : InStep (expectedBlock ^^^ blockNumMask) p := by
    intro _
    rw [numberBit_toggle, hnumber]
    simp
  unfold acceptIBlock
  dsimp only
  split
  · rename_i hchained
    have hmoved : (!isChained f) = false := by simpa [isChained] using hchained
    obtain ⟨hack, hackNum⟩ := buildChainedAck_spec (expectedBlock ^^^ blockNumMask) c.session.cid c.session.pcbHasCid
    have hexpects := expects_chainAck hack (p := p) fun hactive => by
      rw [hackNum]
      exact hstep hactive
    rw [hackNum] at hexpects
    rw [hmoved]
    exact ⟨⟨Or.inr ⟨isSWtx_of_isRAck hack, hackNum, hstep⟩, hexpects⟩, rfl⟩
  · rename_i hlast
    exact ⟨hstep, by simpa [isChained] using hlast⟩

/-- **The receive loop** over the answer of a card that owes a response. -/
theorem rxFrame_keeps {resp : Frame} {expectedBlock blockNum : Byte} {a : Answer}
    (hnumber : p.number = numberBit expectedBlock) (hsends : p.Sends .response a.frame p')
    (hframed : Framed c.session a.frame)
    (hwtx : isSWtx a.frame = true → ¬ (c.frameTimeoutMs < a.elapsedMs ∨ a.abortPending = true))
    (hfits : isIBlock a.frame = true → c.takesInf resp a.frame = true) :
    Keeps p' (movesNumber a.frame) blockNum (c.rxFrame resp expectedBlock blockNum a) := by
  have hnumber' : p'.number = numberBit expectedBlock := hsends.number_eq.trans hnumber
  have hpos : 1 ≤ a.frame.length := le_trans (one_le_rxHdrSkip _) hframed.1
  unfold rxFrame
  dsimp only
  cases hsends with
  | wtx wtx inf multiplier =>
      rw [if_pos wtx, movesNumber_of_isSWtx wtx]
      exact answerWtx_keeps (.rx ⟨resp, expectedBlock, blockNum, .recvWtxEchoTimeout⟩) wtx inf multiplier
        hnumber' rfl (hwtx wtx) fun q h => h
  | block block number =>
      have hmatches : rxIBlockNumberMatches a.frame expectedBlock = true := by
        unfold rxIBlockNumberMatches
        dsimp only
        rw [if_neg (by omega), if_neg (by simpa [isIBlock] using block), if_neg (Nat.not_lt.mpr hframed.1)]
        exact beq_iff_eq.mpr ((mask_eq_iff _ _).mpr (number.trans hnumber))
      have hclass : u8At a.frame 0 &&& pcbClassMask = pcbClassIBlock := by simpa [isIBlock] using block
      rw [if_neg (by simp [isSWtx_of_isIBlock block]), if_pos hclass, if_neg (by simp [hmatches]),
        movesNumber_of_isIBlock block]
      have htakes := hfits block
      unfold takesInf at htakes
      split
      · rename_i hnone
        rw [hnone] at htakes
        cases htakes
      · rename_i inf hinf
        rw [hinf] at htakes
        dsimp only at htakes
        cases happend : appendInf c.respCap resp inf with
        | some resp' => exact acceptIBlock_keeps hnumber'
        | none =>
            rw [happend] at htakes
            obtain rfl : inf = [] := by simpa using htakes
            rw [if_neg (by simp)]
            exact acceptIBlock_keeps hnumber'

theorem isRAck_iff (pcb : Byte) : (pcb &&& 0xF6 == pcbRBlockBase) = true ↔
    pcb &&& pcbRBlockExpectMask = pcbRBlockBase ∧ pcb &&& pcbChainBit = 0 := by
  have h : ∀ pcb : Byte, (pcb &&& 0xF6 == pcbRBlockBase) = true ↔
      pcb &&& pcbRBlockExpectMask = pcbRBlockBase ∧ pcb &&& pcbChainBit = 0 := by decide
  exact h pcb

/-- The acknowledgement of a fragment: the reader moves its number on. -/
theorem txChainFrame_acknowledged {w : TxWait} {a : Answer} (hblk : w.blkSent = w.blockNum &&& blockNumMask)
    (hnumber : p.number = numberBit w.blockNum) (ack : isRAck a.frame = true) (number : numberOf a.frame = p.number)
    (hframed : Framed c.session a.frame) :
    c.txChainFrame w a = c.txFragment (w.off + w.block.fragLen) (w.blockNum ^^^ blockNumMask) a := by
  have hpos : 1 ≤ a.frame.length := le_trans (one_le_rxHdrSkip _) hframed.1
  obtain ⟨hbase, hchain⟩ := (isRAck_iff _).mp ack
  have hcid : ¬ (c.session.pcbHasCid = true ∧
      (u8At a.frame 0 &&& pcbCidBit = 0 ∨ u8At a.frame 1 ≠ c.session.cid)) := by
    rintro ⟨hhas, hbad⟩
    obtain ⟨hbit, hsame⟩ := hframed.2 hhas
    rcases hbad with hbad | hbad
    · exact hbit hbad
    · exact hbad hsame
  have hblock : ∀ nak, rxRblockBlock a.frame nak c.session.pcbHasCid c.session.cid =
      if nak then none else some (u8At a.frame 0 &&& blockNumMask) := by
    intro nak
    unfold rxRblockBlock
    dsimp only
    rw [if_neg (by omega), if_neg (Nat.not_lt.mpr hframed.1), if_neg (not_not_intro hbase)]
    cases nak with
    | true => rw [if_pos (by simp [hchain]), if_pos rfl]
    | false => rw [if_neg (by simp [hchain]), if_neg hcid, if_neg Bool.false_ne_true]
  have hnak : rxIsChainNakForBlock a.frame w.blkSent c.session.pcbHasCid c.session.cid = false := by
    rw [rxIsChainNakForBlock, hblock]
    rfl
  have hack : rxIsChainAckForBlock a.frame w.blkSent c.session.pcbHasCid c.session.cid = true := by
    rw [rxIsChainAckForBlock, hblock]
    refine beq_iff_eq.mpr ((mask_eq_iff _ _).mpr ?_)
    rw [hblk, numberBit_mask]
    exact number.trans hnumber
  rw [txChainFrame, if_neg (by simp [isSWtx_of_isRAck ack]), hnak, if_neg Bool.false_ne_true, if_pos hack]

/-- **The transmit loop** over the answer of a card that owes an acknowledgement. -/
theorem txChainFrame_keeps {w : TxWait} {a : Answer} (hblk : w.blkSent = w.blockNum &&& blockNumMask)
    (hmore : w.block.chainMore = true) (hnumber : p.number = numberBit w.blockNum)
    (hsends : p.Sends .ack a.frame p') (hframed : Framed c.session a.frame)
    (hwtx : isSWtx a.frame = true → ¬ (c.frameTimeoutMs < a.elapsedMs ∨ a.abortPending = true)) :
    Keeps p' (movesNumber a.frame) w.blockNum (c.txChainFrame w a) := by
  have hnumber' : p'.number = numberBit w.blockNum := hsends.number_eq.trans hnumber
  cases hsends with
  | wtx wtx inf multiplier =>
      unfold txChainFrame
      rw [if_pos wtx, movesNumber_of_isSWtx wtx]
      refine answerWtx_keeps (.tx { w with onSilence := .txChainWtxEchoTimeout }) wtx inf multiplier hnumber' rfl
        (hwtx wtx) fun q h => ⟨hblk, ?_⟩
      dsimp only
      rw [hmore]
      exact h
  | ack ack number =>
      rw [txChainFrame_acknowledged hblk hnumber ack number hframed, movesNumber_of_isRAck ack]
      refine txFragment_keeps ?_ (Or.inl ⟨?_, isSWtx_of_isRAck ack⟩)
      · intro _
        rw [numberBit_toggle, hnumber']
        simp
      · exact Bool.eq_false_iff.mpr fun hI => by simp [isRAck_of_isIBlock hI] at ack

/-- **The step lemma.** An answer of the card that does not interrupt the call keeps both in step. -/
theorem onAnswer_keeps {q : Request} {w : Wait} {a : Answer} {heard : Bool} (hwaits : Waits p q w)
    (hreacts : Reacts c.session p q.frame a.frame heard p') (hno : ¬ c.Interrupts w a) :
    Keeps p' (movesNumber a.frame) w.blockNum (c.onAnswer w a) := by
  obtain ⟨hanswers, hframed⟩ := hreacts.answers (fun hsilent => hno (Or.inl hsilent))
  simp only [Interrupts, not_or, not_and] at hno
  obtain ⟨hheard, hwtx, hfits⟩ := hno
  have hlen : ¬ a.frame.length < 1 := by
    have := le_trans (one_le_rxHdrSkip _) hframed.1
    omega
  cases w with
  | tx w =>
      obtain ⟨-, hblk, hexpects⟩ := hwaits
      obtain ⟨taken, hnumber, hsends⟩ := hexpects _ _ hanswers
      rw [onAnswer_tx, if_neg hlen]
      cases hmore : w.block.chainMore with
      | true =>
          rw [hmore, if_pos rfl] at hsends
          exact txChainFrame_keeps hblk hmore hnumber hsends hframed (fun h => not_or.mpr (hwtx h))
      | false =>
          rw [hmore, if_neg Bool.false_ne_true] at hsends
          exact rxFrame_keeps hnumber hsends hframed (fun h => not_or.mpr (hwtx h))
            (fun h => Bool.eq_true_of_not_eq_false (hfits h))
  | rx w =>
      obtain ⟨taken, hnumber, hsends⟩ := hwaits.2 _ _ hanswers
      rw [onAnswer_rx, if_neg hlen]
      exact rxFrame_keeps hnumber hsends hframed (fun h => not_or.mpr (hwtx h))
        (fun h => Bool.eq_true_of_not_eq_false (hfits h))

theorem start_keeps (hstep : InStep c.session.blockNum p) : Keeps p true committed c.start := by
  unfold start
  split
  · exact ⟨hstep, rfl⟩
  · exact txFragment_keeps hstep (Or.inr rfl)

/-! ### Interruptions -/

theorem answerWtx_interrupted {errs : WtxErrs} {blockNum : Byte} {a : Answer} {wait : Wait}
    (h : c.frameTimeoutMs < a.elapsedMs ∨ a.abortPending = true) :
    ∃ code, c.answerWtx errs blockNum a wait = .stop ⟨.err (some code), blockNum⟩ := by
  unfold answerWtx
  dsimp only
  split
  · exact ⟨_, rfl⟩
  · rename_i hdeadline
    rw [if_pos (h.resolve_left hdeadline)]
    exact ⟨_, rfl⟩

theorem rxFrame_interrupted {resp : Frame} {expectedBlock blockNum : Byte} {a : Answer}
    (h : (isSWtx a.frame = true ∧ (c.frameTimeoutMs < a.elapsedMs ∨ a.abortPending = true)) ∨
      (isIBlock a.frame = true ∧ c.takesInf resp a.frame = false)) :
    ∃ code, c.rxFrame resp expectedBlock blockNum a = .stop ⟨.err (some code), blockNum⟩ := by
  unfold rxFrame
  dsimp only
  rcases h with ⟨hwtx, hlate⟩ | ⟨hI, hfits⟩
  · rw [if_pos hwtx]
    exact answerWtx_interrupted hlate
  · have hclass : u8At a.frame 0 &&& pcbClassMask = pcbClassIBlock := by simpa [isIBlock] using hI
    rw [if_neg (by simp [isSWtx_of_isIBlock hI]), if_pos hclass]
    split
    · exact ⟨_, rfl⟩
    unfold takesInf at hfits
    split
    · exact ⟨_, rfl⟩
    · rename_i inf hinf
      rw [hinf] at hfits
      simp only [Bool.or_eq_false_iff] at hfits
      obtain ⟨happend, hinf⟩ := hfits
      have hnone : appendInf c.respCap resp inf = none := by simpa using happend
      have hpos : 0 < inf.length := by
        rw [List.length_pos_iff]
        rintro rfl
        simp at hinf
      rw [hnone]
      dsimp only
      rw [if_pos hpos]
      exact ⟨_, rfl⟩

/-- An interrupted call fails, and the reader's number is the one it had committed. -/
theorem onAnswer_interrupted {w : Wait} {a : Answer} (h : c.Interrupts w a) :
    ∃ code, c.onAnswer w a = .stop ⟨.err (some code), w.blockNum⟩ := by
  rcases h with hnil | h
  · have hlen : a.frame.length < 1 := by simp [hnil]
    cases w with
    | tx w =>
        rw [onAnswer_tx, if_pos hlen]
        exact ⟨_, rfl⟩
    | rx w =>
        rw [onAnswer_rx, if_pos hlen]
        exact ⟨_, rfl⟩
  cases w with
  | tx w =>
      rw [onAnswer_tx]
      split
      · exact ⟨_, rfl⟩
      split
      · unfold txChainFrame
        rcases h with ⟨hwtx, hlate⟩ | ⟨hI, -⟩
        · rw [if_pos hwtx]
          exact answerWtx_interrupted hlate
        · have hno : ∀ nak, rxRblockBlock a.frame nak c.session.pcbHasCid c.session.cid = none := by
            intro nak
            cases hblock : rxRblockBlock a.frame nak c.session.pcbHasCid c.session.cid with
            | none => rfl
            | some block => exact absurd (not_isIBlock_of_rxRblockBlock hblock) (by simp [hI])
          rw [if_neg (by simp [isSWtx_of_isIBlock hI]), if_neg (by simp [rxIsChainNakForBlock, hno]),
            if_neg (by simp [rxIsChainAckForBlock, hno]), if_neg (by simp [hno])]
          exact ⟨_, rfl⟩
      · exact rxFrame_interrupted h
  | rx w =>
      rw [onAnswer_rx]
      split
      · exact ⟨_, rfl⟩
      · exact rxFrame_interrupted h

end Call

end NeroReader.IsoDep
