import NeroReader.IsoDepFragments
import NeroReader.IsoDepExchange

/-!
Responses that take several rounds. Each round brings a response of its own, reassembled from its
chained I-blocks; the exchange keeps the bodies and drops the status words in between. The rounds of
an exchange are read off its run, and what the card sent in each is read off the frames alone.
-/

namespace NeroReader.IsoDep

open Driver

/-! ### One round -/

/-- What the card sent in a round: the INF fields of its I-blocks. -/
def cardResponse (trace : List Exchange) : Frame :=
  trace.flatMap fun e => if isIBlock e.2.frame then cardInf e.2.frame else []

/-- The CRC of the round's last frame. -/
def crcTail (trace : List Exchange) : Frame :=
  match trace.getLast? with
  | none => []
  | some e => crcOf e.2.frame

/-- The reader finds the INF field of every I-block of the round behind its header. -/
def OffsetsExact (s : Session) (trace : List Exchange) : Prop :=
  ∀ e ∈ trace, isIBlock e.2.frame = true →
    s.pickInfOffset e.2.frame = rxHdrSkip (u8At e.2.frame 0)

instance (s : Session) (trace : List Exchange) : Decidable (OffsetsExact s trace) :=
  inferInstanceAs (Decidable (∀ e ∈ trace, isIBlock e.2.frame = true →
    s.pickInfOffset e.2.frame = rxHdrSkip (u8At e.2.frame 0)))

theorem cardResponse_concat (trace : List Exchange) (q : Request) (a : Answer) :
    cardResponse (trace ++ [(q, a)]) =
      cardResponse trace ++ if isIBlock a.frame then cardInf a.frame else [] := by
  rw [cardResponse, List.flatMap_append, List.flatMap_singleton]
  rfl

theorem crcTail_concat (trace : List Exchange) (q : Request) (a : Answer) :
    crcTail (trace ++ [(q, a)]) = crcOf a.frame := by
  simp [crcTail]

namespace Call

variable (c : Call)

/-- The response collected so far is what the card sent; at the end its last CRC stands behind. -/
def Collects (trace : List Exchange) : Action → Prop
  | .send _ (.tx _) => cardResponse trace = []
  | .send _ (.rx w) => w.resp = cardResponse trace
  | .stop ⟨.ok resp, _⟩ => 2 ≤ resp.length → resp = cardResponse trace ++ crcTail trace
  | .stop ⟨.err _, _⟩ => True

variable {c}

theorem collects_finishIncomplete (trace : List Exchange) (resp : Frame) (blockNum : Byte) :
    Collects trace (finishIncomplete resp blockNum) := by
  unfold finishIncomplete
  split
  · trivial
  · intro hlen
    omega

theorem collects_answerWtx {trace : List Exchange} {errs : WtxErrs} {blockNum : Byte} {a : Answer}
    {wait : Wait} {q : Request} (h : Collects trace (.send q wait)) :
    Collects trace (c.answerWtx errs blockNum a wait) := by
  unfold answerWtx
  dsimp only
  split
  · trivial
  split
  · trivial
  split
  · trivial
  · cases wait with
    | tx w => exact h
    | rx w => exact h

/-- An accepted I-block adds the card's INF field. -/
theorem collects_acceptIBlock {trace : List Exchange} {q : Request} {a : Answer} {resp : Frame}
    {expectedBlock blockNum : Byte} (hI : isIBlock a.frame = true)
    (hresp : resp = cardResponse trace ++
      (cardInf a.frame ++ if isChained a.frame then [] else crcOf a.frame)) :
    Collects (trace ++ [(q, a)]) (c.acceptIBlock (u8At a.frame 0) resp expectedBlock blockNum) := by
  have hchain : isChained a.frame = true ↔ u8At a.frame 0 &&& pcbChainBit ≠ 0 := by
    simp [isChained]
  unfold acceptIBlock
  dsimp only
  split
  · rename_i hbit
    rw [hchain.mpr hbit, if_pos rfl, List.append_nil] at hresp
    change resp = cardResponse (trace ++ [(q, a)])
    rw [cardResponse_concat, if_pos hI, hresp]
  · rename_i hbit
    rw [if_neg (fun h => hbit (hchain.mp h))] at hresp
    intro _
    rw [cardResponse_concat, if_pos hI, crcTail_concat, hresp, List.append_assoc]

/-- One turn of the receive loop. -/
theorem collects_rxFrame {trace : List Exchange} {q : Request} {a : Answer} {resp : Frame}
    {expectedBlock blockNum : Byte} (hresp : resp = cardResponse trace)
    (hoff : OffsetsExact c.session (trace ++ [(q, a)])) :
    Collects (trace ++ [(q, a)]) (c.rxFrame resp expectedBlock blockNum a) := by
  unfold rxFrame
  dsimp only
  split
  · rename_i hwtx
    refine collects_answerWtx (q := q) ?_
    change resp = cardResponse (trace ++ [(q, a)])
    rw [cardResponse_concat, isIBlock_of_isSWtx hwtx, if_neg Bool.false_ne_true, List.append_nil, hresp]
  split
  · rename_i hclass
    have hI : isIBlock a.frame = true := beq_iff_eq.mpr hclass
    split
    · trivial
    rw [hoff (q, a) (by simp) hI]
    split
    · trivial
    rename_i inf hinf
    have hcard := iBlockInf_eq_cardInf hinf
    split
    · rename_i resp' happend
      refine collects_acceptIBlock hI ?_
      unfold appendInf at happend
      split at happend
      · cases happend
      · cases happend
        rw [hresp, hcard]
    · split
      · trivial
      · rename_i hempty
        refine collects_acceptIBlock hI ?_
        have hnil : inf = [] := List.length_eq_zero_iff.mp (by omega)
        rw [← hcard, hnil, List.append_nil, hresp]
  · exact collects_finishIncomplete _ _ _

/-- A turn of the transmit loop brings no I-block into the response. -/
theorem collects_onAnswer_tx {trace : List Exchange} {q : Request} {w : TxWait} {a : Answer}
    (htrace : cardResponse trace = []) (hoff : OffsetsExact c.session (trace ++ [(q, a)])) :
    Collects (trace ++ [(q, a)]) (c.onAnswer (.tx w) a) := by
  have hskip : isIBlock a.frame = false → cardResponse (trace ++ [(q, a)]) = [] := by
    intro h
    rw [cardResponse_concat, htrace, h]
    rfl
  have hresend : isIBlock a.frame = false → ∀ limit, Collects (trace ++ [(q, a)]) (c.txResend w limit) := by
    intro h limit
    unfold txResend
    split
    · trivial
    · exact hskip h
  rw [onAnswer_tx]
  split
  · trivial
  split
  · unfold txChainFrame
    split
    · rename_i hwtx
      exact collects_answerWtx (q := q) (hskip (isIBlock_of_isSWtx hwtx))
    split
    · rename_i hnak
      refine hresend ?_ _
      unfold rxIsChainNakForBlock at hnak
      split at hnak
      · cases hnak
      · exact not_isIBlock_of_rxRblockBlock ‹_›
    split
    · rename_i hack
      have hR : isIBlock a.frame = false := by
        unfold rxIsChainAckForBlock at hack
        split at hack
        · cases hack
        · exact not_isIBlock_of_rxRblockBlock ‹_›
      unfold txFragment
      split
      · dsimp only
        split
        · trivial
        · exact hskip hR
      · -- nothing left to send: the receive loop starts over the acknowledgement
        exact collects_rxFrame htrace.symm hoff
    split
    · rename_i hsome
      obtain ⟨block, hblock⟩ := Option.isSome_iff_exists.mp hsome
      exact hresend (not_isIBlock_of_rxRblockBlock hblock) _
    · trivial
  · exact collects_rxFrame htrace.symm hoff

theorem collects_start : Collects [] c.start := by
  unfold start
  split
  · trivial
  unfold txFragment
  split
  · dsimp only
    split
    · trivial
    · rfl
  · rw [if_pos (by decide)]
    exact collects_finishIncomplete _ _ _

end Call

/-- **What a completed round returns** is what the card sent, and the CRC of the last frame. -/
theorem sendIBlock_collects {c : Call} {answers : List Answer} {resp : Frame} {blockNum : Byte}
    (hfinal : (sendIBlock c answers).final = .stop ⟨.ok resp, blockNum⟩) (hlen : 2 ≤ resp.length)
    (hoff : OffsetsExact c.session (sendIBlock c answers).trace) :
    resp = cardResponse (sendIBlock c answers).trace ++ crcTail (sendIBlock c answers).trace := by
  have h := run_invariant c.onAnswer
    (fun trace next => OffsetsExact c.session trace → Call.Collects trace next)
    (by
      intro trace q s a hinv hoff
      have hbefore : OffsetsExact c.session trace := fun e he => hoff e (List.mem_append_left _ he)
      cases s with
      | tx w => exact Call.collects_onAnswer_tx (hinv hbefore) hoff
      | rx w =>
          rw [Call.onAnswer_rx]
          split
          · trivial
          · exact Call.collects_rxFrame (hinv hbefore) hoff)
    c.start (fun _ => Call.collects_start) answers
  have hend := h hoff
  change Call.Collects (sendIBlock c answers).trace (sendIBlock c answers).final at hend
  rw [hfinal] at hend
  exact hend hlen

/-! ### The rounds of an exchange -/

/-- The response bytes in front of a round. -/
def Round.kept : Round → Frame
  | .command => []
  | .getResponse kept => kept
  | .ctapGetResponse kept => kept

structure RoundRun where
  round : Round
  trace : List Exchange
  returned : Returned

namespace RoundRun

/-- The round brought at least a status word. -/
def Complete (rr : RoundRun) : Prop :=
  match rr.returned.received with
  | .ok resp => 2 ≤ resp.length
  | .err _ => False

instance (rr : RoundRun) : Decidable rr.Complete :=
  match h : rr.returned.received with
  | .ok resp => decidable_of_iff (2 ≤ resp.length) (by simp only [Complete, h])
  | .err _ => .isFalse (by simp only [Complete, h, not_false_eq_true])

def response (rr : RoundRun) : Frame := cardResponse rr.trace

/-- The reader reads the round's response as the card sent it: every INF field behind its header,
at least a status word, and the trim takes off the last CRC and nothing else. -/
structure FramingExact (x : ApduCall) (rr : RoundRun) : Prop where
  offsets : OffsetsExact x.session rr.trace
  statusWord : 2 ≤ rr.response.length
  trim : trimCrcSuffix (rr.round.kept ++ (rr.response ++ crcTail rr.trace)) =
    rr.round.kept ++ rr.response

instance (x : ApduCall) (rr : RoundRun) : Decidable (rr.FramingExact x) :=
  decidable_of_iff (OffsetsExact x.session rr.trace ∧ 2 ≤ rr.response.length ∧
      trimCrcSuffix (rr.round.kept ++ (rr.response ++ crcTail rr.trace)) = rr.round.kept ++ rr.response)
    ⟨fun h => ⟨h.1, h.2.1, h.2.2⟩, fun h => ⟨h.offsets, h.statusWord, h.trim⟩⟩

end RoundRun

/-- A finished exchange, one round after the other. -/
inductive Exchanged (x : ApduCall) : ApduAction → List Answer → List RoundRun → Returned → Prop
  | stop (r : Returned) (answers : List Answer) : Exchanged x (.stop r) answers [] r
  | round {q : Request} {s : Wait} (round : Round) {blockNum : Byte} {apdu : Frame} {respCap : Nat}
      {answers : List Answer} {r₀ r : Returned} {rounds : List RoundRun}
      (hstart : (x.roundCall blockNum apdu respCap).start = .send q s)
      (hround : (sendIBlock (x.roundCall blockNum apdu respCap) answers).final = .stop r₀)
      (hrest : Exchanged x (x.onReturned round r₀)
        (sendIBlock (x.roundCall blockNum apdu respCap) answers).rest rounds r) :
      Exchanged x (.send q (⟨x, round, x.roundCall blockNum apdu respCap⟩, s)) answers
        (⟨round, (sendIBlock (x.roundCall blockNum apdu respCap) answers).trace, r₀⟩ :: rounds) r

def ApduCall.startAction (x : ApduCall) : ApduAction := x.command.call.start.within Rounds.cont x.command

theorem exchanged_stop {x : ApduCall} {r r' : Returned} {answers : List Answer} {rounds : List RoundRun}
    (h : Exchanged x (.stop r) answers rounds r') : rounds = [] ∧ r' = r := by
  cases h
  exact ⟨rfl, rfl⟩

/-! ### How a round begins -/

theorem apduChunkBudget_ne_zero_of_le {picFrameMax small large : Nat} (hle : small ≤ large)
    (h : apduChunkBudget picFrameMax large ≠ 0) : apduChunkBudget picFrameMax small ≠ 0 := by
  simp only [apduChunkBudget, ne_eq, ite_eq_left_iff, not_forall] at h ⊢
  obtain ⟨hroom, -⟩ := h
  exact ⟨by omega, by omega⟩

theorem iBlockTxHdrLen_bounds (pcbHasCid includeNad : Bool) :
    1 ≤ iBlockTxHdrLen pcbHasCid includeNad ∧ iBlockTxHdrLen pcbHasCid includeNad ≤ 3 ∧
      iBlockTxHdrLen pcbHasCid false ≤ iBlockTxHdrLen pcbHasCid includeNad := by
  cases pcbHasCid <;> cases includeNad <;> decide

namespace Call

variable {c : Call}

theorem fragCap_ne_zero_of_start {q : Request} {s : Wait} (h : c.start = .send q s) : c.fragCap ≠ 0 := by
  intro hzero
  unfold start at h
  rw [if_pos (Or.inl hzero)] at h
  cases h

/-- A call that ends before its first frame brings nothing. -/
theorem start_stop {r : Returned} (h : c.start = .stop r) {resp : Frame} (hr : r.received = .ok resp) :
    resp = [] := by
  unfold start at h
  split at h
  · cases h
    cases hr
  unfold txFragment at h
  split at h
  · dsimp only at h
    split at h
    · cases h
      cases hr
    · cases h
  · cases h
    cases hr
    rfl

/-- A command goes out whenever a fragment has room. -/
theorem start_sends (hroom : c.fragCap ≠ 0) (hne : 0 < c.apdu.length) :
    ∃ q w, c.start = .send q (.tx w) ∧ q.frame = w.block.wire := by
  obtain ⟨hhdr, -, -⟩ := iBlockTxHdrLen_bounds c.session.pcbHasCid (c.addNad && c.session.txIncludeNad)
  obtain ⟨-, hmax, -⟩ := iBlockTxHdrLen_bounds c.session.pcbHasCid c.addNad
  have hhdrLen : c.txHdrLen ≠ 0 := Nat.ne_of_gt hhdr
  have hfragCap : c.fragCap ≤ 48 := by
    change apduChunkBudget _ _ ≤ 48
    unfold apduChunkBudget
    split <;> omega
  unfold start
  rw [if_neg (not_or.mpr ⟨hroom, hhdrLen⟩)]
  unfold txFragment
  rw [if_pos hne]
  dsimp only
  have hbuild : ∃ b, buildIBlockTx iBlockTxBufLen c.apdu 0 c.fragCap c.session.pcbHasCid c.session.cid
      c.addNad txNadValue (c.session.blockNum &&& blockNumMask) = some b := by
    unfold buildIBlockTx
    rw [if_neg (by omega)]
    dsimp only
    rw [if_neg (by rw [iBlockTxBufLen]; split <;> omega)]
    exact ⟨_, rfl⟩
  obtain ⟨b, hb⟩ := hbuild
  rw [hb]
  exact ⟨_, _, rfl, rfl⟩

end Call

namespace ApduCall

variable (x : ApduCall)

/-- The frame size that let the command out lets every short command out: a NAD goes with it only
when it fits in one fragment. -/
theorem roundCall_start (hroom : x.command.call.fragCap ≠ 0) (blockNum : Byte) {apdu : Frame}
    (respCap : Nat) (hne : 0 < apdu.length) (hshort : apdu.length ≤ 5) :
    ∃ q s, (x.roundCall blockNum apdu respCap).start = .send q s := by
  suffices hcap : (x.roundCall blockNum apdu respCap).fragCap ≠ 0 by
    obtain ⟨q, w, hstart, -⟩ := Call.start_sends hcap hne
    exact ⟨q, .tx w, hstart⟩
  obtain ⟨-, -, hle⟩ := iBlockTxHdrLen_bounds x.session.pcbHasCid
    (x.command.call.addNad && x.session.txIncludeNad)
  have hplain : x.session.apduChunkBudget (x.session.txHdrLen false) ≠ 0 :=
    apduChunkBudget_ne_zero_of_le hle hroom
  change x.session.apduChunkBudget (x.session.txHdrLen (x.session.txAddNad apdu)) ≠ 0
  cases hnad : x.session.txAddNad apdu with
  | false => exact hplain
  | true =>
      unfold Session.txAddNad at hnad
      split at hnad
      · cases hnad
      split at hnad
      · cases hnad
      split at hnad
      · cases hnad
      · have hfits := of_decide_eq_true hnad
        omega

/-- The action puts the first frame of a round on the air. -/
def Begins (round : Round) (act : ApduAction) : Prop :=
  ∃ q s blockNum apdu respCap, act = .send q (⟨x, round, x.roundCall blockNum apdu respCap⟩, s) ∧
    (x.roundCall blockNum apdu respCap).start = .send q s

variable {x}

theorem begins_within {round : Round} {blockNum : Byte} {apdu : Frame} {respCap : Nat}
    {cont : Rounds → Returned → ApduAction}
    (hstart : ∃ q s, (x.roundCall blockNum apdu respCap).start = .send q s) :
    x.Begins round ((x.roundCall blockNum apdu respCap).start.within cont
      ⟨x, round, x.roundCall blockNum apdu respCap⟩) := by
  obtain ⟨q, s, h⟩ := hstart
  exact ⟨q, s, blockNum, apdu, respCap, by rw [h]; rfl, h⟩

/-- One of the two loops stands before its next round, with these response bytes. -/
def LoopHead (x : ApduCall) (resp : Frame) (act : ApduAction) : Prop :=
  ∃ blockNum, act = x.isoLoop resp blockNum ∨ act = x.ctapLoop resp blockNum ∨ act = finish resp blockNum

theorem two_le_of_moreData {resp : Frame} {remaining : Byte}
    (h : iso7816ResponseMoreData resp = some remaining) : 2 ≤ resp.length := by
  by_contra hshort
  rw [iso7816ResponseMoreData, iso7816ResponseSw, if_pos (by omega)] at h
  cases h

theorem two_le_of_ctapMoreData {resp : Frame} (h : ctapResponseMoreData resp = true) :
    2 ≤ resp.length := by
  by_contra hshort
  rw [ctapResponseMoreData, iso7816ResponseSw, if_pos (by omega)] at h
  cases h

/-- **The loop heads.** A loop ends the exchange or begins a round behind the bytes in front of the
status word. -/
theorem loopHead_cases (hroom : x.command.call.fragCap ≠ 0) {resp : Frame} {act : ApduAction}
    (h : LoopHead x resp act) :
    (∃ blockNum, act = finish resp blockNum) ∨
      (2 ≤ resp.length ∧ ∃ round, round ≠ .command ∧ round.kept = resp.take (resp.length - 2) ∧
        x.Begins round act) := by
  have hctap : ∀ blockNum, act = x.ctapLoop resp blockNum →
      (∃ blockNum, act = finish resp blockNum) ∨
        (2 ≤ resp.length ∧ ∃ round, round ≠ .command ∧ round.kept = resp.take (resp.length - 2) ∧
          x.Begins round act) := by
    rintro blockNum rfl
    unfold ctapLoop
    dsimp only
    split
    · rename_i hmore
      refine Or.inr ⟨two_le_of_ctapMoreData hmore.2.1, .ctapGetResponse _, nofun, rfl, ?_⟩
      exact begins_within (x.roundCall_start hroom _ _ (by decide) (by decide))
    · exact Or.inl ⟨_, rfl⟩
  obtain ⟨blockNum, hact | hact | rfl⟩ := h
  · rcases x.isoLoop_cases resp blockNum with hloop | ⟨remaining, hmore, hloop⟩
    · exact hctap blockNum (hact.trans hloop)
    · rw [hact, hloop]
      refine Or.inr ⟨two_le_of_moreData hmore, .getResponse _, nofun, rfl, ?_⟩
      exact begins_within (x.roundCall_start hroom _ _ (Nat.zero_lt_succ 4) (Nat.le_refl 5))
  · exact hctap blockNum hact
  · exact Or.inl ⟨_, rfl⟩

/-- What is kept is less than a status word: no loop goes on. -/
theorem loopHead_short {resp : Frame} {act : ApduAction} (hshort : resp.length < 2)
    (h : LoopHead x resp act) : ∃ blockNum, act = finish resp blockNum := by
  have hctap : ∀ blockNum, x.ctapLoop resp blockNum = finish resp blockNum := by
    intro blockNum
    unfold ctapLoop
    dsimp only
    exact if_neg fun hmore => by have := two_le_of_ctapMoreData hmore.2.1; omega
  obtain ⟨blockNum, rfl | rfl | rfl⟩ := h
  · rcases x.isoLoop_cases resp blockNum with hloop | ⟨remaining, hmore, -⟩
    · exact ⟨blockNum, hloop.trans (hctap blockNum)⟩
    · have := two_le_of_moreData hmore
      omega
  · exact ⟨blockNum, hctap blockNum⟩
  · exact ⟨blockNum, rfl⟩

/-- Behind a GET RESPONSE round: a complete one is appended, any other leaves what was kept. -/
theorem loopHead_onReturned {round : Round} (hround : round ≠ .command) (r : Returned) :
    (∃ more, r.received = .ok more ∧ 2 ≤ more.length ∧
        LoopHead x (trimCrcSuffix (round.kept ++ more)) (x.onReturned round r)) ∨
      ((∀ more, r.received = .ok more → more.length < 2) ∧
        LoopHead x round.kept (x.onReturned round r)) := by
  obtain ⟨received, blockNum⟩ := r
  cases round with
  | command => exact absurd rfl hround
  | getResponse kept =>
      cases received with
      | err code => exact Or.inr ⟨nofun, blockNum, Or.inr (Or.inl rfl)⟩
      | ok more =>
          rw [onReturned_getResponse_ok]
          split
          · rename_i hshort
            exact Or.inr ⟨by rintro _ ⟨⟩; exact hshort, blockNum, Or.inr (Or.inl rfl)⟩
          · rename_i hlen
            exact Or.inl ⟨more, rfl, Nat.le_of_not_lt hlen, blockNum, Or.inl rfl⟩
  | ctapGetResponse kept =>
      cases received with
      | err code => exact Or.inr ⟨nofun, blockNum, Or.inr (Or.inr rfl)⟩
      | ok more =>
          rw [onReturned_ctapGetResponse_ok]
          split
          · rename_i hshort
            exact Or.inr ⟨by rintro _ ⟨⟩; exact hshort, blockNum, Or.inr (Or.inr rfl)⟩
          · rename_i hlen
            exact Or.inl ⟨more, rfl, Nat.le_of_not_lt hlen, blockNum, Or.inr (Or.inl rfl)⟩

/-! ### The rounds of a run -/

/-- An action between two rounds. -/
def Fresh (x : ApduCall) (act : ApduAction) : Prop := (∃ r, act = .stop r) ∨ ∃ round, x.Begins round act

theorem fresh_loopHead (hroom : x.command.call.fragCap ≠ 0) {resp : Frame} {act : ApduAction}
    (h : LoopHead x resp act) : Fresh x act := by
  rcases loopHead_cases hroom h with ⟨blockNum, rfl⟩ | ⟨-, round, -, -, hbegins⟩
  · exact Or.inl ⟨_, rfl⟩
  · exact Or.inr ⟨round, hbegins⟩

theorem fresh_onReturned (hroom : x.command.call.fragCap ≠ 0) (round : Round) (r : Returned) :
    Fresh x (x.onReturned round r) := by
  by_cases hround : round = .command
  · subst hround
    obtain ⟨received, blockNum⟩ := r
    cases received with
    | err code => exact Or.inl ⟨_, rfl⟩
    | ok resp =>
        rw [onReturned_command_ok]
        split
        · exact Or.inl ⟨_, rfl⟩
        · exact fresh_loopHead hroom ⟨blockNum, Or.inl rfl⟩
  · rcases loopHead_onReturned (x := x) hround r with ⟨_, _, _, h⟩ | ⟨_, h⟩
    · exact fresh_loopHead hroom h
    · exact fresh_loopHead hroom h

/-- A run from between two rounds that ends has its rounds. -/
theorem exchanged_of_final (hroom : x.command.call.fragCap ≠ 0) {act : ApduAction}
    {answers : List Answer} {r : Returned} (hact : Fresh x act)
    (hend : (run (nested Rounds.step Rounds.cont) act answers).final = .stop r) :
    ∃ rounds, Exchanged x act answers rounds r := by
  induction hn : answers.length using Nat.strong_induction_on generalizing act answers with
  | _ n ih =>
      rcases hact with ⟨r', rfl⟩ | ⟨round, q, s, blockNum, apdu, respCap, rfl, hstart⟩
      · rw [run_stop] at hend
        cases hend
        exact ⟨[], .stop _ _⟩
      · have hsame : run (Rounds.step ⟨x, round, x.roundCall blockNum apdu respCap⟩) (.send q s) answers =
            sendIBlock (x.roundCall blockNum apdu respCap) answers := by
          rw [sendIBlock, hstart]
          rfl
        have hnested := run_within Rounds.step Rounds.cont
          ⟨x, round, x.roundCall blockNum apdu respCap⟩ (.send q s) answers
        change run _ (.send q (_, s)) answers = _ at hnested
        rw [hnested, hsame] at hend
        cases hround : (sendIBlock (x.roundCall blockNum apdu respCap) answers).final with
        | send q' s' =>
            rw [hround] at hend
            cases hend
        | stop r₀ =>
            rw [hround] at hend
            have hshort : (sendIBlock (x.roundCall blockNum apdu respCap) answers).rest.length < n := by
              rw [← hsame] at hround ⊢
              cases answers with
              | nil => cases hround
              | cons a later =>
                  have := congrArg List.length (run_answers
                    (Rounds.step ⟨x, round, x.roundCall blockNum apdu respCap⟩)
                    (Rounds.step ⟨x, round, x.roundCall blockNum apdu respCap⟩ s a) later)
                  rw [List.length_append] at this
                  rw [run_send_cons, Outcome.after_rest, ← hn, List.length_cons]
                  omega
            obtain ⟨rounds, hrounds⟩ := ih _ hshort (fresh_onReturned hroom round r₀) hend rfl
            exact ⟨_, .round round hstart hround hrounds⟩

/-- A command that ends before its first frame ends the exchange. -/
theorem startAction_of_stop {r : Returned} (hstart : x.command.call.start = .stop r) :
    x.startAction = .stop r := by
  obtain ⟨received, blockNum⟩ := r
  change (x.command.call.start.within Rounds.cont x.command) = _
  rw [hstart]
  change x.onReturned .command ⟨received, blockNum⟩ = _
  cases received with
  | err code => rfl
  | ok resp =>
      rw [Call.start_stop hstart rfl]
      rfl

/-- Every exchange that ends has its rounds. -/
theorem exchanged_startAction {answers : List Answer} {r : Returned}
    (hend : (sendApduTimeoutEx x answers).final = .stop r) :
    ∃ rounds, Exchanged x x.startAction answers rounds r := by
  cases hstart : x.command.call.start with
  | send q s =>
      have hroom := Call.fragCap_ne_zero_of_start hstart
      have hbegins : x.Begins .command x.startAction := begins_within ⟨q, s, hstart⟩
      exact exchanged_of_final hroom (Or.inr ⟨_, hbegins⟩) hend
  | stop r₀ =>
      have hact := startAction_of_stop hstart
      change (run _ x.startAction answers).final = _ at hend
      rw [hact, run_stop] at hend
      cases hend
      rw [hact]
      exact ⟨[], .stop _ _⟩

end ApduCall

end NeroReader.IsoDep
