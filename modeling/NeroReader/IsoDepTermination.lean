import NeroReader.DriverEndless
import NeroReader.IsoDepRounds

/-!
When an exchange ends. Every frame of the card uses something up: a fragment of the command, one of the two repetitions
of a fragment, room in the response, or time in front of the deadline of S(WTX). Only I-blocks that bring hardly any
byte use up nothing, and a card that goes on with them keeps the reader for ever (`terminates_iff`).
-/

namespace NeroReader.IsoDep

open Driver

/-- An I-block that need not bring the response forward: a chained one with an empty INF field, or a last one with no
more than a status word and a CRC. -/
def Idle (s : Session) (f : Frame) : Prop :=
  isIBlock f = true ∧ ∃ inf, iBlockInf f (s.pickInfOffset f) (u8At f 0) = some inf ∧
    inf.length ≤ if isChained f then 0 else 4

/-! ### Within a call -/

/-- The fragment on the air has bytes of the command. -/
def Wait.Built : Wait → Prop
  | .tx w => 0 < w.block.fragLen
  | .rx _ => True

namespace Call

variable (c : Call)

/-- What is left for frames that cost no time. -/
def left : Wait → Nat
  | .tx w => c.respCap + 1 + 3 * (c.apdu.length - w.off) + (chainRnakMax - w.rnakRetries)
  | .rx w => c.respCap - w.resp.length

/-- Behind an answer the call waits with less left, or in time with as much; or it ends without a response, or with
more than four bytes. An idle answer need not keep to that. -/
def Descends (a : Answer) (bound : Nat) : Action → Prop
  | .send _ s => s.Built ∧ (¬Idle c.session a.frame →
      c.left s < bound ∨ c.left s = bound ∧ a.elapsedMs ≤ c.frameTimeoutMs)
  | .stop r => ¬Idle c.session a.frame → ∀ resp, r.received = .ok resp → resp = [] ∨ 4 < resp.length

variable {c} {a : Answer} {bound : Nat}

theorem descends_fail (blockNum : Byte) (code : Err) : c.Descends a bound (fail blockNum code) := by
  intro _ resp hresp
  cases hresp

theorem descends_finishIncomplete (resp : Frame) (blockNum : Byte) :
    c.Descends a bound (finishIncomplete resp blockNum) := by
  rw [finishIncomplete]
  split
  · exact descends_fail _ _
  next hempty =>
    intro _ resp' hresp
    obtain rfl := Received.ok.inj hresp
    exact Or.inl (List.length_eq_zero_iff.mp (Nat.eq_zero_of_not_pos hempty))

theorem descends_answerWtx (errs : WtxErrs) (blockNum : Byte) {wait : Wait} (hbuilt : wait.Built)
    (hle : c.left wait ≤ bound) : c.Descends a bound (c.answerWtx errs blockNum a wait) := by
  rw [answerWtx]
  split
  · exact descends_fail _ _
  next htime =>
    split
    · exact descends_fail _ _
    split
    · exact descends_fail _ _
    · refine ⟨hbuilt, fun _ => ?_⟩
      obtain hlt | heq := Nat.lt_or_eq_of_le hle
      · exact Or.inl hlt
      · exact Or.inr ⟨heq, Nat.le_of_not_lt htime⟩

theorem isChained_iff {f : Frame} : isChained f = true ↔ u8At f 0 &&& pcbChainBit ≠ 0 := by
  rw [isChained, bne_iff_ne]

/-- An I-block that is not idle takes room in the response. -/
theorem descends_acceptIBlock {resp inf : Frame} {expectedBlock blockNum : Byte} (hI : isIBlock a.frame = true)
    (hinf : iBlockInf a.frame (c.session.pickInfOffset a.frame) (u8At a.frame 0) = some inf)
    (hroom : (resp ++ inf).length ≤ c.respCap ∨ inf = []) (hle : c.respCap - resp.length ≤ bound) :
    c.Descends a bound (c.acceptIBlock (u8At a.frame 0) (resp ++ inf) expectedBlock blockNum) := by
  have hbusy (h : ¬Idle c.session a.frame) : (if isChained a.frame then 0 else 4) < inf.length := by
    apply Nat.lt_of_not_le
    intro hfew
    exact h ⟨hI, inf, hinf, hfew⟩
  rw [acceptIBlock]
  split
  next hchain =>
    refine ⟨trivial, fun h => Or.inl ?_⟩
    have hpos := hbusy h
    rw [if_pos (isChained_iff.mpr hchain)] at hpos
    have hfits := hroom.resolve_right (List.ne_nil_of_length_pos hpos)
    rw [List.length_append] at hfits
    change c.respCap - (resp ++ inf).length < bound
    rw [List.length_append]
    omega
  next hchain =>
    intro h resp' hresp
    obtain rfl := Received.ok.inj hresp
    have hmany := hbusy h
    rw [if_neg (fun hc => hchain (isChained_iff.mp hc))] at hmany
    rw [List.length_append]
    exact Or.inr (by omega)

theorem descends_rxFrame {resp : Frame} {expectedBlock blockNum : Byte} (hle : c.respCap - resp.length ≤ bound) :
    c.Descends a bound (c.rxFrame resp expectedBlock blockNum a) := by
  rw [rxFrame]
  split
  · exact descends_answerWtx _ _ trivial hle
  split
  next hclass =>
    have hI : isIBlock a.frame = true := beq_iff_eq.mpr hclass
    split
    · exact descends_fail _ _
    split
    · exact descends_fail _ _
    next inf hinf =>
      split
      next resp' happend =>
        rw [appendInf] at happend
        split at happend
        · cases happend
        next hfits =>
          obtain rfl := Option.some.inj happend
          refine descends_acceptIBlock hI hinf (Or.inl ?_) hle
          rw [List.length_append]
          omega
      · split
        · exact descends_fail _ _
        next hempty =>
          obtain rfl := List.length_eq_zero_iff.mp (Nat.eq_zero_of_not_pos hempty)
          have h : c.Descends a bound (c.acceptIBlock (u8At a.frame 0) (resp ++ []) expectedBlock blockNum) :=
            descends_acceptIBlock hI hinf (Or.inr rfl) hle
          rwa [List.append_nil] at h
  · exact descends_finishIncomplete _ _

theorem descends_txFragment {off : Nat} {blockNum : Byte}
    (hoff : off < c.apdu.length → c.respCap + 1 + 3 * (c.apdu.length - off) + chainRnakMax < bound)
    (hle : c.respCap ≤ bound) : c.Descends a bound (c.txFragment off blockNum a) := by
  rw [txFragment]
  split
  next hmore =>
    dsimp only
    split
    · intro _ resp hresp
      cases hresp
    next block hblock =>
      obtain ⟨-, -, -, -, -, hfrag, -⟩ := buildIBlockTx_spec hblock
      exact ⟨hfrag, fun _ => Or.inl (hoff hmore)⟩
  · split
    · exact descends_finishIncomplete _ _
    · exact descends_rxFrame hle

/-- A repetition uses up one of the two. -/
theorem descends_txResend {w : TxWait} (hbuilt : Wait.Built (.tx w)) (limit : Err) :
    c.Descends a (c.left (.tx w)) (c.txResend w limit) := by
  rw [txResend]
  split
  · exact descends_fail _ _
  next hretries =>
    refine ⟨hbuilt, fun _ => Or.inl ?_⟩
    rw [left, left]
    dsimp only
    omega

/-- **What an answer uses up.** -/
theorem descends_onAnswer {wait : Wait} (hbuilt : wait.Built) (a : Answer) :
    c.Descends a (c.left wait) (c.onAnswer wait a) := by
  cases wait with
  | rx w =>
      rw [onAnswer_rx]
      split
      · exact descends_fail _ _
      · exact descends_rxFrame (Nat.le_refl _)
  | tx w =>
      have hfrag : 0 < w.block.fragLen := hbuilt
      have hcap : c.respCap ≤ c.left (.tx w) := by
        rw [left]
        omega
      rw [onAnswer_tx]
      split
      · exact descends_fail _ _
      split
      · rw [txChainFrame]
        split
        · exact descends_answerWtx _ _ hbuilt (Nat.le_refl _)
        split
        · exact descends_txResend hbuilt _
        split
        · refine descends_txFragment (fun hmore => ?_) hcap
          rw [left, chainRnakMax]
          omega
        split
        · exact descends_txResend hbuilt _
        · exact descends_fail _ _
      · exact descends_rxFrame (Nat.le_trans (Nat.sub_le _ _) hcap)

theorem built_start {q : Request} {s : Wait} (h : c.start = .send q s) : s.Built := by
  have hdescends : c.Descends silence (c.respCap + 1 + 3 * c.apdu.length + chainRnakMax + 1) c.start := by
    rw [start]
    split
    · intro _ resp hresp
      cases hresp
    · refine descends_txFragment (fun _ => ?_) ?_
      · rw [Nat.sub_zero]
        exact Nat.lt_succ_self _
      · omega
  rw [h] at hdescends
  exact hdescends.1

end Call

/-! ### From round to round -/

/-- What is left for rounds: the rounds of the ISO loop come in front of those of the NFCCTAP loop, and each keeps
more of the response than the one before. -/
def Round.left (respCap : Nat) : Round → Nat
  | .command => 2 * respCap + 2
  | .getResponse kept => respCap + 1 + (respCap - kept.length)
  | .ctapGetResponse kept => respCap - kept.length

namespace ApduCall

variable (x : ApduCall)

/-- A waiting state that the exchange can be in. -/
structure InExchange (s : Rounds × Wait) : Prop where
  exchange : s.1.exchange = x
  session : ∃ blockNum, s.1.call.session = { x.session with blockNum := blockNum }
  room : s.1.round ≠ .command → s.1.round.kept.length < x.respCap
  built : s.2.Built

/-- If the action puts a frame on the air, it does so in a state of the exchange, and with less left behind an answer
that is not idle. -/
def Enters (busy : Prop) (bound : Nat) (act : ApduAction) : Prop :=
  ∀ q s, act = .send q s → x.InExchange s ∧ (busy → s.1.round.left x.respCap < bound)

variable {x} {busy : Prop} {bound : Nat}

theorem enters_stop (r : Returned) : x.Enters busy bound (.stop r) := by
  intro q s h
  cases h

theorem enters_within {round : Round} {blockNum : Byte} {apdu : Frame} {respCap : Nat}
    {cont : Rounds → Returned → ApduAction} (hroom : round ≠ .command → round.kept.length < x.respCap)
    (hlt : busy → round.left x.respCap < bound)
    (hcont : ∀ r, x.Enters busy bound (cont ⟨x, round, x.roundCall blockNum apdu respCap⟩ r)) :
    x.Enters busy bound ((x.roundCall blockNum apdu respCap).start.within cont
      ⟨x, round, x.roundCall blockNum apdu respCap⟩) := by
  cases hstart : (x.roundCall blockNum apdu respCap).start with
  | stop r => exact hcont r
  | send q w =>
      intro q' s h
      obtain ⟨-, rfl⟩ := Next.send.inj h
      exact ⟨⟨rfl, ⟨blockNum, rfl⟩, hroom, Call.built_start hstart⟩, hlt⟩

/-- Room for a status word behind a response leaves room behind what is kept of it. -/
theorem kept_lt {resp : Frame} (hlen : 2 ≤ resp.length)
    (htail : swStatusWordLen ≤ respTailCap x.respCap resp.length) :
    (resp.take (resp.length - swStatusWordLen)).length = resp.length - 2 ∧ resp.length + 2 ≤ x.respCap := by
  rw [swStatusWordLen, respTailCap] at htail
  rw [List.length_take, swStatusWordLen]
  split at htail
  · omega
  · omega

theorem enters_ctapLoop {resp : Frame} (blockNum : Byte)
    (h : busy → 2 ≤ resp.length → resp.length + 2 ≤ x.respCap → x.respCap - (resp.length - 2) < bound) :
    x.Enters busy bound (x.ctapLoop resp blockNum) := by
  rw [ctapLoop]
  dsimp only
  split
  next hmore =>
    obtain ⟨-, hdata, htail⟩ := hmore
    have hlen := two_le_of_ctapMoreData hdata
    obtain ⟨hkept, hroom⟩ := kept_lt hlen htail
    refine enters_within (fun _ => ?_) (fun hb => ?_) fun r => enters_stop _
    · rw [Round.kept, hkept]
      omega
    · rw [Round.left, hkept]
      exact h hb hlen hroom
  · exact enters_stop _

theorem enters_isoLoop {resp : Frame} (blockNum : Byte)
    (h : busy → 2 ≤ resp.length → resp.length + 2 ≤ x.respCap →
      x.respCap + 1 + (x.respCap - (resp.length - 2)) < bound) :
    x.Enters busy bound (x.isoLoop resp blockNum) := by
  have hctap : x.Enters busy bound (x.ctapLoop resp blockNum) :=
    enters_ctapLoop blockNum fun hb hlen hroom => by
      have := h hb hlen hroom
      omega
  rw [isoLoop]
  dsimp only
  split
  · exact hctap
  next remaining hdata =>
    split
    next hmore =>
      have hlen := two_le_of_moreData hdata
      obtain ⟨hkept, hroom⟩ := kept_lt hlen hmore.2
      refine enters_within (fun _ => ?_) (fun hb => ?_) fun r => ?_
      · rw [Round.kept, hkept]
        omega
      · rw [Round.left, hkept]
        exact h hb hlen hroom
      · refine enters_ctapLoop _ fun hb _ _ => ?_
        have := h hb hlen hroom
        omega
    · exact hctap

theorem trimCrcSuffix_length (buf : Frame) : buf.length - 2 ≤ (trimCrcSuffix buf).length := by
  rcases trimCrcSuffix_cases buf with h | ⟨-, h⟩
  · rw [h]
    exact Nat.sub_le _ _
  · rw [h, List.length_take]
    omega

/-- **What a round uses up.** A round that is answered in more than four bytes keeps at least one of them. -/
theorem enters_onReturned {round : Round} (hroom : round ≠ .command → round.kept.length < x.respCap) {r : Returned}
    (hmany : busy → ∀ more, r.received = .ok more → more = [] ∨ 4 < more.length) :
    x.Enters busy (round.left x.respCap) (x.onReturned round r) := by
  obtain ⟨received, blockNum⟩ := r
  have hlong (hb : busy) {more : Frame} (hr : received = .ok more) (hlen : ¬more.length < swStatusWordLen) :
      4 < more.length := by
    apply (hmany hb more hr).resolve_left
    rintro rfl
    exact hlen (by decide)
  cases round with
  | command =>
      cases received with
      | err code => exact enters_stop _
      | ok resp =>
          rw [onReturned_command_ok]
          split
          · exact enters_stop _
          · refine enters_isoLoop _ fun _ _ _ => ?_
            rw [Round.left]
            omega
  | getResponse kept =>
      have hkept : kept.length < x.respCap := hroom nofun
      have hctap : x.Enters busy (Round.left x.respCap (.getResponse kept)) (x.ctapLoop kept blockNum) := by
        refine enters_ctapLoop _ fun _ _ _ => ?_
        rw [Round.left]
        omega
      cases received with
      | err code => exact hctap
      | ok more =>
          rw [onReturned_getResponse_ok]
          split
          · exact hctap
          next hlen =>
            refine enters_isoLoop _ fun hb _ _ => ?_
            have hlarge := hlong hb rfl hlen
            have htrim := trimCrcSuffix_length (kept ++ more)
            rw [List.length_append] at htrim
            rw [Round.left]
            omega
  | ctapGetResponse kept =>
      have hkept : kept.length < x.respCap := hroom nofun
      cases received with
      | err code => exact enters_stop _
      | ok more =>
          rw [onReturned_ctapGetResponse_ok]
          split
          · exact enters_stop _
          next hlen =>
            refine enters_ctapLoop _ fun hb _ _ => ?_
            have hlarge := hlong hb rfl hlen
            have htrim := trimCrcSuffix_length (kept ++ more)
            rw [List.length_append] at htrim
            rw [Round.left]
            omega

/-- The state an answer leads to stays one of the exchange. -/
theorem InExchange.step {s s' : Rounds × Wait} (hin : x.InExchange s) {a : Answer} {q : Request}
    (h : nested Rounds.step Rounds.cont s a = .send q s') : x.InExchange s' := by
  obtain ⟨⟨exchange, round, call⟩, w⟩ := s
  obtain ⟨rfl, hsession, hroom, hbuilt⟩ := hin
  rw [nested] at h
  cases hstep : Rounds.step ⟨exchange, round, call⟩ w a with
  | send q' w' =>
      rw [hstep] at h
      obtain ⟨-, rfl⟩ := Next.send.inj h
      have hdescends := Call.descends_onAnswer (c := call) hbuilt a
      rw [show call.onAnswer w a = .send q' w' from hstep] at hdescends
      exact ⟨rfl, hsession, hroom, hdescends.1⟩
  | stop r =>
      have henters : exchange.Enters False (round.left exchange.respCap) (exchange.onReturned round r) :=
        enters_onReturned hroom False.elim
      rw [hstep] at h
      exact (henters q s' h).1

theorem inExchange_startAction {q : Request} {s : Rounds × Wait} (h : x.startAction = .send q s) :
    x.InExchange s := by
  have hcommand : Round.command ≠ .command → Round.command.kept.length < x.respCap := fun hne => absurd rfl hne
  have henters : x.Enters False (Round.command.left x.respCap) x.startAction :=
    enters_within hcommand False.elim fun r => enters_onReturned hcommand False.elim
  exact (henters q s h).1

end ApduCall

/-! ### Endless cards -/

section Endless

variable (x : ApduCall) (card : Nat → Answer)

/-- The exchange is over behind finitely many frames of the card. -/
def Terminates : Prop := ∃ n r, (sendApduTimeoutEx x ((List.range n).map card)).final = .stop r

/-- The exchange waits for this frame of the card. -/
def Hears (n : Nat) (s : Rounds × Wait) : Prop :=
  ∃ q, (sendApduTimeoutEx x ((List.range n).map card)).final = .send q s

/-- Every exchange of frames takes a millisecond at least: as long as a call goes on, the clock has moved on from one
answer to the next. -/
def ClockAdvances : Prop :=
  ∀ n r w q w', Hears x card n (r, w) → r.step w (card n) = .send q w' →
    (card n).elapsedMs < (card (n + 1)).elapsedMs

variable {x card}

/-- The rounds, what the call has left, and the time it has left for S(WTX). -/
def remaining (x : ApduCall) (card : Nat → Answer) (n : Nat) (s : Rounds × Wait) : ℕ ×ₗ ℕ ×ₗ ℕ :=
  toLex (s.1.round.left x.respCap,
    toLex (s.1.call.left s.2, s.1.call.frameTimeoutMs + 1 - (card n).elapsedMs))

theorem remaining_descends (hclock : ClockAdvances x card) {n : Nat} {s s' : Rounds × Wait} {q : Request}
    (hhears : Hears x card n s) (hin : x.InExchange s) (hbusy : ¬Idle x.session (card n).frame)
    (h : nested Rounds.step Rounds.cont s (card n) = .send q s') :
    remaining x card (n + 1) s' < remaining x card n s := by
  obtain ⟨⟨exchange, round, call⟩, w⟩ := s
  obtain ⟨rfl, ⟨blockNum, hsession⟩, hroom, hbuilt⟩ := hin
  have hbusy' : ¬Idle call.session (card n).frame := by
    change call.session = _ at hsession
    rw [hsession]
    exact hbusy
  have hdescends := Call.descends_onAnswer (c := call) hbuilt (card n)
  rw [nested] at h
  rw [remaining, remaining, Prod.Lex.toLex_lt_toLex]
  cases hstep : Rounds.step ⟨exchange, round, call⟩ w (card n) with
  | send q' w' =>
      rw [hstep] at h
      obtain ⟨-, rfl⟩ := Next.send.inj h
      have hadvance := hclock n _ w q' w' hhears hstep
      rw [show call.onAnswer w (card n) = .send q' w' from hstep] at hdescends
      refine Or.inr ⟨rfl, ?_⟩
      rw [Prod.Lex.toLex_lt_toLex]
      obtain hless | ⟨hsame, htime⟩ := hdescends.2 hbusy'
      · exact Or.inl hless
      · refine Or.inr ⟨hsame, ?_⟩
        dsimp only
        omega
  | stop r =>
      rw [hstep] at h
      rw [show call.onAnswer w (card n) = .stop r from hstep] at hdescends
      have henters : exchange.Enters True (round.left exchange.respCap) (exchange.onReturned round r) :=
        ApduCall.enters_onReturned hroom fun _ more hmore => hdescends hbusy' more hmore
      exact Or.inl ((henters q s' h).2 trivial)

/-- **An exchange ends exactly if the reader hears finitely many idle frames**, whatever the card sends. -/
theorem terminates_iff (x : ApduCall) {card : Nat → Answer} (hclock : ClockAdvances x card) :
    Terminates x card ↔ ∃ first, ∀ n s, first ≤ n → Hears x card n s → ¬Idle x.session (card n).frame := by
  refine ends_iff (remaining x card) fun n s q s' hwait hbusy h => ?_
  have hin : x.InExchange s := hwait.invariant (fun _ _ => ApduCall.inExchange_startAction)
    fun _ _ _ _ hin' hsend => hin'.step hsend
  exact remaining_descends hclock hwait hin hbusy h

/-- A READ BINARY whose caller wants all the data. -/
def endlessRead : ApduCall := ⟨Session.plain 64, [0x00, 0xB0, 0x00, 0x00, 0x00], 256, 1000, true⟩

/-- A card that asks for more time, and nothing else. -/
def wtxCard (n : Nat) : Answer := ⟨[0xF2, 0x01], n + 1, false⟩

theorem terminates_iff_wtx : Terminates endlessRead wtxCard := by
  refine (terminates_iff endlessRead (fun n _ _ _ _ _ _ => Nat.lt_succ_self (n + 1))).mpr ⟨0, fun n s _ _ hidle => ?_⟩
  have hI : isIBlock [0xF2, 0x01] = true := hidle.1
  exact absurd hI (by decide)

/-- A card that answers each command with 6100 and nothing else. -/
def moreDataCard (n : Nat) : Answer := ⟨[if n % 2 = 0 then 0x02 else 0x03, 0x61, 0x00], 1, false⟩

/-- The reader waits for the answer to a GET RESPONSE with this block number. -/
def awaitsMoreData (blockNum : Byte) : Rounds × Wait :=
  (⟨endlessRead, .getResponse [], endlessRead.roundCall blockNum (getResponseApdu 0x00) 254⟩,
    .tx ⟨0, ⟨[0x02 ||| blockNum, 0x00, 0xC0, 0x00, 0x00, 0x00], 0x02 ||| blockNum, 1, 5, false⟩, blockNum, blockNum, 0,
      .transceiveTimeout⟩)

theorem moreDataCard_succ (n : Nat) :
    moreDataCard (n + 1) = ⟨[if n % 2 = 0 then 0x03 else 0x02, 0x61, 0x00], 1, false⟩ := by
  rw [moreDataCard]
  rcases Nat.mod_two_eq_zero_or_one n with heven | hodd
  · rw [if_neg (by omega), if_pos heven]
  · rw [if_pos (by omega), if_neg (by omega)]

/-- The call of the GET RESPONSE is over with one frame, and the next one begins. -/
theorem awaitsMoreData_step (even : Prop) [Decidable even] :
    (awaitsMoreData (if even then 0x01 else 0x00)).1.step (awaitsMoreData (if even then 0x01 else 0x00)).2
        ⟨[if even then 0x03 else 0x02, 0x61, 0x00], 1, false⟩ =
      .stop ⟨.ok [0x61, 0x00], if even then 0x00 else 0x01⟩ := by
  split
  · rfl
  · rfl

theorem awaitsMoreData_next (even : Prop) [Decidable even] :
    ∃ q, nested Rounds.step Rounds.cont (awaitsMoreData (if even then 0x01 else 0x00))
        ⟨[if even then 0x03 else 0x02, 0x61, 0x00], 1, false⟩ =
      .send q (awaitsMoreData (if even then 0x00 else 0x01)) := by
  rw [nested, awaitsMoreData_step]
  split
  · exact ⟨_, rfl⟩
  · exact ⟨_, rfl⟩

theorem hears_moreDataCard (n : Nat) :
    Hears endlessRead moreDataCard (n + 1) (awaitsMoreData (if n % 2 = 0 then 0x01 else 0x00)) := by
  induction n with
  | zero =>
      have hstart : behind (nested Rounds.step Rounds.cont) endlessRead.startAction moreDataCard 0 =
          endlessRead.startAction := behind_zero
      exact ⟨_, behind_succ_of_send hstart⟩
  | succ n ih =>
      obtain ⟨q, hwait⟩ := ih
      obtain ⟨q', hnext⟩ := awaitsMoreData_next (n % 2 = 0)
      refine ⟨q', (behind_succ_of_send hwait).trans ?_⟩
      rw [moreDataCard_succ, hnext]
      rcases Nat.mod_two_eq_zero_or_one n with heven | hodd
      · rw [if_pos heven, if_neg (by omega)]
      · rw [if_neg (by omega), if_pos (by omega)]

theorem Hears.unique {x : ApduCall} {card : Nat → Answer} {n : Nat} {s s' : Rounds × Wait} (h : Hears x card n s)
    (h' : Hears x card n s') : s = s' := by
  obtain ⟨q, hs⟩ := h
  obtain ⟨q', hs'⟩ := h'
  exact (Next.send.inj (hs.symm.trans hs')).2

/-- Such a card is asked for more data for ever. -/
theorem more_data_never_ends : ClockAdvances endlessRead moreDataCard ∧ ¬Terminates endlessRead moreDataCard := by
  constructor
  · intro n r w q w' hhears hstep
    cases n with
    | zero =>
        obtain ⟨q₀, hstart⟩ := hhears
        obtain ⟨-, heq⟩ := Next.send.inj hstart
        obtain ⟨rfl, rfl⟩ := Prod.mk.inj heq
        cases hstep
    | succ n =>
        have hone := awaitsMoreData_step (n % 2 = 0)
        rw [moreDataCard_succ, show r = (awaitsMoreData (if n % 2 = 0 then 0x01 else 0x00)).1 from
          congrArg Prod.fst (hhears.unique (hears_moreDataCard n)),
          show w = (awaitsMoreData (if n % 2 = 0 then 0x01 else 0x00)).2 from
          congrArg Prod.snd (hhears.unique (hears_moreDataCard n)), hone] at hstep
        cases hstep
  · rintro ⟨n, r, hstop⟩
    exact not_waitsAt_of_stop hstop (Nat.le_succ n) (hears_moreDataCard n)

end Endless

end NeroReader.IsoDep
