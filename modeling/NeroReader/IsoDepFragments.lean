import NeroReader.IsoDepTransceive

/-!
The transmit side of a call. Whatever the card answers, the exchanges of a call up to the receive
phase fall into one run of exchanges for each fragment of the command; the fragments put together
are the command, and the next one starts behind an R(ACK) with the number of the one before.
-/

namespace NeroReader.IsoDep

open Driver

/-- A fragment of the command with the exchanges made while it was the current one. -/
structure Fragment where
  frame : Frame
  exchanges : List Exchange

/-- The frames sent for one fragment: the fragment first, and no other I-block after it. -/
def WellSent (frame : Frame) (sent : List Frame) : Prop :=
  ∃ later, sent = frame :: later ∧ ∀ f ∈ later, f = frame ∨ isIBlock f = false

/-- The number of the `i`-th block counted from a given one. -/
def blockAt (first : Byte) : Nat → Byte
  | 0 => first &&& blockNumMask
  | i + 1 => blockAt first i ^^^ blockNumMask

def Fragment.sent (f : Fragment) : List Frame := f.exchanges.map fun e => e.1.frame

def Fragment.Acked (f : Fragment) : Prop :=
  ∃ e, f.exchanges.getLast? = some e ∧ IsRAck e.2.frame (blockOf f.frame)

/-- A trace that carries an APDU in fragments numbered from `first`, followed by exchanges of the
receive phase. -/
structure Transmits (apdu : Frame) (first : Byte) (trace : List Exchange) (fragments : List Fragment)
    (receive : List Exchange) : Prop where
  trace_eq : trace = fragments.flatMap Fragment.exchanges ++ receive
  iBlocks : ∀ f ∈ fragments, isIBlock f.frame = true
  sent : ∀ f ∈ fragments, WellSent f.frame f.sent
  receive_sent : ∀ e ∈ receive, isIBlock e.1.frame = false
  inf : (fragments.flatMap fun f => infOf f.frame) = apdu
  chained : ∀ f ∈ fragments.dropLast, isChained f.frame = true
  last : ∃ f, fragments.getLast? = some f ∧ isChained f.frame = false
  numbers : ∀ i (h : i < fragments.length), blockOf (fragments[i]).frame = blockAt first i
  acked : ∀ f ∈ fragments.dropLast, f.Acked

/-- The call leaves the transmit loop for the receive loop: its last fragment was on the air and
the card answered it. -/
def ReachesReceive (c : Call) (answers : List Answer) : Prop :=
  ∃ before a later, answers = before ++ a :: later ∧ a.frame ≠ [] ∧
    ∃ q w, (sendIBlock c before).final = .send q (.tx w) ∧ w.block.chainMore = false

namespace Call

variable (c : Call)

/-! ### What the steps send -/

theorem answerWtx_send {errs : WtxErrs} {blockNum : Byte} {a : Answer} {wait : Wait} {q : Request}
    {s : Wait} (hwtx : isSWtx a.frame = true) (h : c.answerWtx errs blockNum a wait = .send q s) :
    s = wait ∧ isIBlock q.frame = false := by
  unfold answerWtx at h
  dsimp only at h
  split at h
  · cases h
  split at h
  · cases h
  split at h
  · cases h
  rename_i echo heq
  cases h
  refine ⟨rfl, isIBlock_of_isSWtx ?_⟩
  rw [isSWtx, buildWtxEcho_pcb (one_le_rxHdrSkip _) heq]
  exact hwtx

theorem acceptIBlock_send {pcb : Byte} {resp : Frame} {expectedBlock blockNum : Byte} {q : Request}
    {s : Wait} (h : c.acceptIBlock pcb resp expectedBlock blockNum = .send q s) :
    (∃ w, s = .rx w) ∧ isIBlock q.frame = false := by
  have hack : ∀ b cid : Byte, ∀ hasCid : Bool, isIBlock (buildChainedAck b hasCid cid) = false := by
    intro b cid hasCid
    have hpcb : ∀ b : Byte, ((pcbRBlockBase ||| b &&& blockNumMask) &&& pcbClassMask == pcbClassIBlock) = false ∧
        (((pcbRBlockBase ||| b &&& blockNumMask) ||| pcbCidBit) &&& pcbClassMask == pcbClassIBlock) = false := by
      decide
    cases hasCid
    · exact (hpcb b).1
    · exact (hpcb b).2
  unfold acceptIBlock at h
  dsimp only at h
  split at h
  · cases h
    exact ⟨⟨_, rfl⟩, hack _ _ _⟩
  · cases h

/-- The receive loop stays in the receive loop and sends no I-block. -/
theorem rxFrame_send {resp : Frame} {expectedBlock blockNum : Byte} {a : Answer} {q : Request}
    {s : Wait} (h : c.rxFrame resp expectedBlock blockNum a = .send q s) :
    (∃ w, s = .rx w) ∧ isIBlock q.frame = false := by
  unfold rxFrame at h
  dsimp only at h
  split at h
  · obtain ⟨hs, hq⟩ := c.answerWtx_send ‹_› h
    exact ⟨⟨_, hs⟩, hq⟩
  split at h
  · split at h
    · cases h
    split at h
    · cases h
    split at h
    · exact c.acceptIBlock_send h
    split at h
    · cases h
    · exact c.acceptIBlock_send h
  · unfold finishIncomplete at h
    split at h <;> cases h

theorem onAnswer_rx_send {w : RxWait} {a : Answer} {q : Request} {s : Wait}
    (h : c.onAnswer (.rx w) a = .send q s) : (∃ w', s = .rx w') ∧ isIBlock q.frame = false := by
  rw [onAnswer_rx] at h
  split at h
  · cases h
  · exact c.rxFrame_send h

/-- From the receive loop on, no I-block goes out. -/
theorem run_rx_sent {next : Action}
    (hnext : ∀ q s, next = .send q s → (∃ w, s = .rx w) ∧ isIBlock q.frame = false)
    (answers : List Answer) :
    ∀ e ∈ (run c.onAnswer next answers).trace, isIBlock e.1.frame = false := by
  have h := run_invariant c.onAnswer
    (fun trace next => (∀ e ∈ trace, isIBlock e.1.frame = false) ∧
      ∀ q s, next = .send q s → (∃ w, s = .rx w) ∧ isIBlock q.frame = false)
    (by
      rintro trace q s a ⟨htrace, hs⟩
      obtain ⟨⟨w, rfl⟩, hq⟩ := hs q s rfl
      refine ⟨?_, fun q' s' heq => c.onAnswer_rx_send heq⟩
      intro e he
      rcases List.mem_append.mp he with he | he
      · exact htrace e he
      · rw [List.mem_singleton.mp he]
        exact hq)
    next ⟨by simp, hnext⟩ answers
  exact h.1

/-! ### The transmit invariant -/

/-- The fragments acknowledged so far, the offset reached and the number the next one carries. -/
structure Progress (done : List Fragment) (off : Nat) (blockNum : Byte) : Prop where
  iBlocks : ∀ f ∈ done, isIBlock f.frame = true
  sent : ∀ f ∈ done, WellSent f.frame f.sent
  inf : (done.flatMap fun f => infOf f.frame) = c.apdu.take off
  chained : ∀ f ∈ done, isChained f.frame = true
  numbers : ∀ i (h : i < done.length), blockOf (done[i]).frame = blockAt c.session.blockNum i
  acked : ∀ f ∈ done, f.Acked
  next : blockNum &&& blockNumMask = blockAt c.session.blockNum done.length
  off_lt : off < c.apdu.length

/-- A fragment on the air: the one built at the offset, with the exchanges made for it so far and
the frame that now waits for an answer. -/
structure OnAir (trace : List Exchange) (q : Request) (w : TxWait) (done : List Fragment)
    (current : List Exchange) : Prop where
  trace_eq : trace = done.flatMap Fragment.exchanges ++ current
  progress : c.Progress done w.off w.blockNum
  blkSent : w.blkSent = w.blockNum &&& blockNumMask
  block : buildIBlockTx iBlockTxBufLen c.apdu w.off c.fragCap c.session.pcbHasCid c.session.cid
    c.addNad txNadValue w.blkSent = some w.block
  sent : WellSent w.block.wire ((current.map fun e => e.1.frame) ++ [q.frame])

def TxInv (trace : List Exchange) : Action → Prop
  | .send q (.tx w) => ∃ done current, c.OnAir trace q w done current
  | _ => True

variable {c}

theorem WellSent.append {frame f : Frame} {sent : List Frame} (h : WellSent frame sent)
    (hf : f = frame ∨ isIBlock f = false) : WellSent frame (sent ++ [f]) := by
  obtain ⟨later, rfl, hlater⟩ := h
  refine ⟨later ++ [f], rfl, ?_⟩
  intro g hg
  rcases List.mem_append.mp hg with hg | hg
  · exact hlater g hg
  · rwa [List.mem_singleton.mp hg]

/-- The loop head puts the next fragment on the air. -/
theorem Progress.txFragment {done : List Fragment} {off : Nat} {blockNum : Byte}
    (h : c.Progress done off blockNum) (last : Answer) :
    c.TxInv (done.flatMap Fragment.exchanges) (c.txFragment off blockNum last) := by
  unfold Call.txFragment
  rw [if_pos h.off_lt]
  dsimp only
  split
  · trivial
  · rename_i block hblock
    exact ⟨done, [], ⟨by simp, h, rfl, hblock, ⟨[], rfl, by simp⟩⟩⟩

/-- One more frame goes out while the same fragment waits: the fragment again, or no I-block. -/
theorem OnAir.again {trace : List Exchange} {q q' : Request} {w w' : TxWait} {done : List Fragment}
    {current : List Exchange} (h : c.OnAir trace q w done current) (a : Answer)
    (hoff : w'.off = w.off) (hblock : w'.block = w.block) (hblk : w'.blkSent = w.blkSent)
    (hnum : w'.blockNum = w.blockNum) (hq : q'.frame = w.block.wire ∨ isIBlock q'.frame = false) :
    c.OnAir (trace ++ [(q, a)]) q' w' done (current ++ [(q, a)]) := by
  refine ⟨by rw [h.trace_eq, List.append_assoc], by rw [hoff, hnum]; exact h.progress,
    by rw [hblk, hnum]; exact h.blkSent, by rw [hoff, hblock, hblk]; exact h.block, ?_⟩
  rw [hblock]
  simpa using WellSent.append h.sent hq

/-- The fragment on the air, closed by an answer, with what its frame says. -/
theorem OnAir.closed {trace : List Exchange} {q : Request} {w : TxWait} {done : List Fragment}
    {current : List Exchange} (h : c.OnAir trace q w done current) (a : Answer) :
    isIBlock w.block.wire = true ∧ isChained w.block.wire = w.block.chainMore ∧
      blockOf w.block.wire = blockAt c.session.blockNum done.length ∧
      (done.flatMap fun f => infOf f.frame) ++ infOf w.block.wire =
        c.apdu.take (w.off + w.block.fragLen) ∧
      w.off + w.block.fragLen ≤ c.apdu.length ∧
      (w.block.chainMore = true ↔ w.off + w.block.fragLen < c.apdu.length) ∧
      WellSent w.block.wire (Fragment.sent ⟨w.block.wire, current ++ [(q, a)]⟩) := by
  obtain ⟨hI, hchain, hnum, hinf, hle, -, hmore⟩ := buildIBlockTx_spec h.block
  have hmask : ∀ b : Byte, b &&& blockNumMask &&& blockNumMask = b &&& blockNumMask := by decide
  refine ⟨hI, hchain, ?_, ?_, hle, hmore, ?_⟩
  · rw [hnum, h.blkSent, hmask, h.progress.next]
  · rw [h.progress.inf, hinf, List.take_add]
  · simpa [Fragment.sent] using h.sent

/-- **An acknowledged fragment is done**, and the offset and the number move on together. -/
theorem OnAir.acked {trace : List Exchange} {q : Request} {w : TxWait} {done : List Fragment}
    {current : List Exchange} (h : c.OnAir trace q w done current) {a : Answer}
    (hmore : w.block.chainMore = true) (hack : IsRAck a.frame (w.blkSent &&& blockNumMask)) :
    c.Progress (done ++ [⟨w.block.wire, current ++ [(q, a)]⟩]) (w.off + w.block.fragLen)
      (w.blockNum ^^^ blockNumMask) := by
  obtain ⟨hI, hchain, hnum, hinf, -, hlt, hsent⟩ := h.closed a
  have hmask : ∀ b : Byte, b &&& blockNumMask &&& blockNumMask = b &&& blockNumMask := by decide
  have htoggle : ∀ b : Byte, (b ^^^ blockNumMask) &&& blockNumMask = (b &&& blockNumMask) ^^^ blockNumMask := by
    decide
  refine ⟨?_, ?_, ?_, ?_, ?_, ?_, ?_, hlt.mp hmore⟩
  · intro f hf
    rcases List.mem_append.mp hf with hf | hf
    · exact h.progress.iBlocks f hf
    · rw [List.mem_singleton.mp hf]
      exact hI
  · intro f hf
    rcases List.mem_append.mp hf with hf | hf
    · exact h.progress.sent f hf
    · rw [List.mem_singleton.mp hf]
      exact hsent
  · rw [List.flatMap_append, List.flatMap_singleton]
    exact hinf
  · intro f hf
    rcases List.mem_append.mp hf with hf | hf
    · exact h.progress.chained f hf
    · rw [List.mem_singleton.mp hf]
      exact hchain.trans hmore
  · intro i hi
    rw [List.length_append, List.length_singleton] at hi
    by_cases hlast : i < done.length
    · rw [List.getElem_append_left hlast]
      exact h.progress.numbers i hlast
    · obtain rfl : i = done.length := by omega
      simpa using hnum
  · intro f hf
    rcases List.mem_append.mp hf with hf | hf
    · exact h.progress.acked f hf
    · rw [List.mem_singleton.mp hf]
      refine ⟨(q, a), by simp, ?_⟩
      rw [hnum, ← h.progress.next, ← h.blkSent]
      have hblk := h.blkSent
      rw [hblk, hmask, ← hblk] at hack
      exact hack
  · rw [htoggle, h.progress.next, List.length_append, List.length_singleton, blockAt]

/-- **One answer in the transmit phase.** Retransmissions and echoes belong to the fragment on the
air, an acknowledgement closes it. -/
theorem OnAir.step {trace : List Exchange} {q : Request} {w : TxWait} {done : List Fragment}
    {current : List Exchange} (h : c.OnAir trace q w done current) (a : Answer) :
    c.TxInv (trace ++ [(q, a)]) (c.onAnswer (.tx w) a) := by
  have hresend : ∀ limit, c.TxInv (trace ++ [(q, a)]) (c.txResend w limit) := by
    intro limit
    unfold txResend
    split
    · trivial
    · exact ⟨done, _, h.again a rfl rfl rfl rfl (Or.inl rfl)⟩
  rw [onAnswer_tx]
  split
  · trivial
  split
  · rename_i hmore
    unfold txChainFrame
    split
    · rename_i hwtx
      cases hact : c.answerWtx txWtxErrs w.blockNum a (.tx { w with onSilence := .txChainWtxEchoTimeout }) with
      | stop r => trivial
      | send q' s =>
          obtain ⟨rfl, hq'⟩ := c.answerWtx_send hwtx hact
          exact ⟨done, _, h.again a rfl rfl rfl rfl (Or.inr hq')⟩
    split
    · exact hresend _
    split
    · rename_i hack
      have hdone := h.acked hmore (isRAck_of_rxIsChainAckForBlock hack)
      have hflat : trace ++ [(q, a)] =
          (done ++ [Fragment.mk w.block.wire (current ++ [(q, a)])]).flatMap Fragment.exchanges := by
        rw [h.trace_eq, List.flatMap_append, List.flatMap_singleton, List.append_assoc]
      rw [hflat]
      exact hdone.txFragment a
    split
    · exact hresend _
    · trivial
  · -- the last fragment was answered: whatever follows is the receive loop's
    cases hact : c.rxFrame [] w.blockNum w.blockNum a with
    | stop r => trivial
    | send q' s =>
        obtain ⟨⟨w', rfl⟩, -⟩ := c.rxFrame_send hact
        trivial

theorem txInv_start : c.TxInv [] c.start := by
  unfold start
  split
  · trivial
  by_cases hlen : 0 < c.apdu.length
  · have hnone : c.Progress [] 0 c.session.blockNum :=
      ⟨by simp, by simp, by simp, by simp, by simp, by simp, rfl, hlen⟩
    exact hnone.txFragment silence
  · unfold txFragment
    rw [if_neg hlen, if_pos (by decide)]
    unfold finishIncomplete
    split <;> trivial

theorem txInv_run (answers : List Answer) :
    c.TxInv (sendIBlock c answers).trace (sendIBlock c answers).final := by
  have h := run_invariant c.onAnswer c.TxInv
    (by
      intro trace q s a h
      cases s with
      | tx w =>
          obtain ⟨done, current, h⟩ := h
          exact h.step a
      | rx w =>
          cases hact : c.onAnswer (.rx w) a with
          | stop r => trivial
          | send q' s' =>
              obtain ⟨⟨w', rfl⟩, -⟩ := c.onAnswer_rx_send hact
              trivial)
    c.start txInv_start answers
  exact h

end Call

/-- **Command fragmentation.** In every call that reaches the receive phase, whatever the card
answered, the I-blocks sent are the fragments of the APDU in order: their INF fields concatenate to
the APDU, all but the last are chained, their numbers alternate from the session's, a fragment is
only ever repeated byte for byte, and the next one follows an R(ACK) with its number. -/
theorem sendIBlock_transmits (c : Call) (answers : List Answer) (hreach : ReachesReceive c answers) :
    ∃ fragments receive,
      Transmits c.apdu c.session.blockNum (sendIBlock c answers).trace fragments receive := by
  obtain ⟨before, a, later, rfl, ha, q, w, hfinal, hmore⟩ := hreach
  have hinv := Call.txInv_run (c := c) before
  rw [hfinal] at hinv
  obtain ⟨done, current, hair⟩ := hinv
  obtain ⟨hI, hchain, hnum, hinf, hle, hlt, hsent⟩ := hair.closed a
  have hlen : ¬ a.frame.length < 1 := by
    cases hf : a.frame with
    | nil => exact absurd hf ha
    | cons p rest => simp
  -- the run goes on from the last fragment into the receive loop
  have hrun : (sendIBlock c (before ++ a :: later)).trace =
      (sendIBlock c before).trace ++ ((q, a) ::
        (run c.onAnswer (c.rxFrame [] w.blockNum w.blockNum a) later).trace) := by
    unfold sendIBlock at hfinal ⊢
    rw [run_append_of_waiting c.onAnswer hfinal, Outcome.after_trace, run_send_cons]
    simp only [Call.onAnswer_tx, if_neg hlen, hmore, Bool.false_eq_true, if_false, Outcome.after_trace,
      List.singleton_append]
  refine ⟨done ++ [⟨w.block.wire, current ++ [(q, a)]⟩],
    (run c.onAnswer (c.rxFrame [] w.blockNum w.blockNum a) later).trace, ?_⟩
  have hend : w.off + w.block.fragLen = c.apdu.length := by
    by_contra hne
    have : w.block.chainMore = true := hlt.mpr (by omega)
    rw [hmore] at this
    cases this
  constructor
  · rw [hrun, hair.trace_eq, List.flatMap_append, List.flatMap_singleton]
    simp
  · intro f hf
    rcases List.mem_append.mp hf with hf | hf
    · exact hair.progress.iBlocks f hf
    · rw [List.mem_singleton.mp hf]
      exact hI
  · intro f hf
    rcases List.mem_append.mp hf with hf | hf
    · exact hair.progress.sent f hf
    · rw [List.mem_singleton.mp hf]
      exact hsent
  · exact c.run_rx_sent (fun q' s' hact => c.rxFrame_send hact) later
  · rw [List.flatMap_append, List.flatMap_singleton, hinf, hend, List.take_length]
  · rw [List.dropLast_concat]
    exact hair.progress.chained
  · exact ⟨_, List.getLast?_concat, hchain.trans hmore⟩
  · intro i hi
    rw [List.length_append, List.length_singleton] at hi
    by_cases hlast : i < done.length
    · rw [List.getElem_append_left hlast]
      exact hair.progress.numbers i hlast
    · obtain rfl : i = done.length := by omega
      simpa using hnum
  · rw [List.dropLast_concat]
    exact hair.progress.acked

/-- Six bytes in frames of seven: two fragments, the first one sent twice. -/
theorem sendIBlock_transmits_retried : ∃ fragments receive,
    Transmits [0x00, 0xB0, 0x00, 0x00, 0x01, 0x02] 0
      (sendIBlock ⟨Session.plain 7, [0x00, 0xB0, 0x00, 0x00, 0x01, 0x02], 16, 1000⟩
        [⟨[0xB2], 0, false⟩, ⟨[0xA2], 0, false⟩, ⟨[0x03, 0x90, 0x00], 0, false⟩]).trace
      fragments receive :=
  sendIBlock_transmits ⟨Session.plain 7, [0x00, 0xB0, 0x00, 0x00, 0x01, 0x02], 16, 1000⟩ _
    ⟨[⟨[0xB2], 0, false⟩, ⟨[0xA2], 0, false⟩], ⟨[0x03, 0x90, 0x00], 0, false⟩, [], rfl, by decide,
      _, _, rfl, rfl⟩

end NeroReader.IsoDep
