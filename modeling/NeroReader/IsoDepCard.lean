import NeroReader.IsoDepFragments

/-!
The card at the other end of the link. It keeps its own block number, toggles it when it takes an I-block
or an acknowledgement that continues its chain, and numbers what it sends with it. Frames may be lost in
either direction. The reader and the card are in step when the number of the next I-block is not the one
the card has; a call keeps them in step unless an answer interrupts it.
-/

namespace NeroReader.IsoDep

open Driver

/-! ### Block numbers -/

/-- The block number of a PCB or of the reader. -/
def numberBit (b : Byte) : Bool := b &&& blockNumMask != 0

@[simp] theorem numberBit_toggle (b : Byte) : numberBit (b ^^^ blockNumMask) = !numberBit b := by
  have h : ∀ b : Byte, numberBit (b ^^^ blockNumMask) = !numberBit b := by decide
  exact h b

@[simp] theorem numberBit_mask (b : Byte) : numberBit (b &&& blockNumMask) = numberBit b := by
  have h : ∀ b : Byte, numberBit (b &&& blockNumMask) = numberBit b := by decide
  exact h b

theorem mask_eq_iff (a b : Byte) : a &&& blockNumMask = b &&& blockNumMask ↔ numberBit a = numberBit b := by
  have hbit : ∀ b : Byte, b &&& blockNumMask = if numberBit b then 1 else 0 := by decide
  rw [hbit a, hbit b]
  cases numberBit a <;> cases numberBit b <;> decide

def numberOf (f : Frame) : Bool := numberBit (u8At f 0)

/-- An R(ACK), with or without a CID. -/
def isRAck (f : Frame) : Bool := u8At f 0 &&& 0xF6 == pcbRBlockBase

/-! ### The card -/

/-- What a card has still to send. -/
inductive Owed where
  | ack
  | response
  deriving DecidableEq, Repr

/-- A card of ISO/IEC 14443-4: whether it is in the protocol state, its block number, whether its last
block was chained, and what it owes behind an S(WTX). -/
structure Picc where
  active : Bool
  number : Bool
  chaining : Bool
  owes : Option Owed
  deriving DecidableEq, Repr

namespace Picc

/-- The card behind its ATS. -/
def activated : Picc := ⟨true, true, false, none⟩

/-- The card behind a DESELECT. -/
def halted : Picc := ⟨false, true, false, none⟩

def toggled (p : Picc) : Picc := { p with number := !p.number }

/-- What a card that owes something sends: an S(WTX) to gain time, or the block it owes. -/
inductive Sends (p : Picc) : Owed → Frame → Picc → Prop where
  | wtx {owed : Owed} {f : Frame} (wtx : isSWtx f = true) (inf : rxHdrSkip (u8At f 0) < f.length)
      (multiplier : 1 ≤ u8At f (rxHdrSkip (u8At f 0)) &&& wtxmMask ∧
        u8At f (rxHdrSkip (u8At f 0)) &&& wtxmMask ≤ 59) :
      Sends p owed f { p with chaining := false, owes := some owed }
  | ack {f : Frame} (ack : isRAck f = true) (number : numberOf f = p.number) :
      Sends p .ack f { p with chaining := false, owes := none }
  | block {f : Frame} (block : isIBlock f = true) (number : numberOf f = p.number) :
      Sends p .response f { p with chaining := isChained f, owes := none }

/-- **The rules of the card.** A new I-block and an acknowledgement that continues the chain toggle the
number; an answered S(WTX) does not; a block with the card's own number is taken for a retransmission and
answered with the last block again. -/
inductive Answers (p : Picc) : Frame → Frame → Picc → Prop where
  | iBlock {q f : Frame} {p' : Picc} (active : p.active = true) (block : isIBlock q = true)
      (fresh : numberOf q ≠ p.number)
      (sends : p.toggled.Sends (if isChained q then .ack else .response) f p') : Answers p q f p'
  | chainAck {q f : Frame} {p' : Picc} (active : p.active = true) (ack : isRAck q = true)
      (fresh : numberOf q ≠ p.number) (chaining : p.chaining = true)
      (sends : p.toggled.Sends .response f p') : Answers p q f p'
  | wtx {q f : Frame} {p' : Picc} {owed : Owed} (active : p.active = true) (wtx : isSWtx q = true)
      (owes : p.owes = some owed) (sends : p.Sends owed f p') : Answers p q f p'
  | again {q f : Frame} (active : p.active = true) (block : isIBlock q = true ∨ isRAck q = true)
      (known : numberOf q = p.number) (last : isIBlock f = true ∨ isRAck f = true)
      (number : numberOf f = p.number) : Answers p q f p

/-- A frame as a card sends it in a session: it holds its header, and the CID if the reader uses one. -/
def Framed (s : Session) (f : Frame) : Prop :=
  rxHdrSkip (u8At f 0) ≤ f.length ∧
    (s.pcbHasCid = true → u8At f 0 &&& pcbCidBit ≠ 0 ∧ u8At f 1 = s.cid)

/-- What the reader may receive behind a request, and the card then. A request that the card did not hear was lost,
and the answer to one that it heard may be lost. -/
def Reacts (s : Session) (p : Picc) (q received : Frame) (heard : Bool) (p' : Picc) : Prop :=
  if heard then ∃ f, p.Answers q f p' ∧ Framed s f ∧ (received = f ∨ received = []) else received = [] ∧ p' = p

/-- A frame that was received is the card's answer. -/
theorem Reacts.answers {s : Session} {p p' : Picc} {q received : Frame} {heard : Bool}
    (h : Reacts s p q received heard p') (hreceived : received ≠ []) : p.Answers q received p' ∧ Framed s received := by
  cases heard with
  | false => exact absurd h.1 hreceived
  | true =>
      obtain ⟨f, hanswers, hframed, hf⟩ := h
      obtain rfl := hf.resolve_right hreceived
      exact ⟨hanswers, hframed⟩

/-- Whatever answers `q` comes from a card with this number that owed this. -/
def Expects (p : Picc) (q : Frame) (number : Bool) (owed : Owed) : Prop :=
  ∀ (f : Frame) (p' : Picc), p.Answers q f p' → ∃ taken : Picc, taken.number = number ∧ taken.Sends owed f p'

theorem Sends.number_eq {p p' : Picc} {owed : Owed} {f : Frame} (h : p.Sends owed f p') :
    p'.number = p.number := by
  cases h <;> rfl

theorem Sends.active_eq {p p' : Picc} {owed : Owed} {f : Frame} (h : p.Sends owed f p') :
    p'.active = p.active := by
  cases h <;> rfl

/-- A card that answers is in the protocol state and stays there. -/
theorem Answers.active {p p' : Picc} {q f : Frame} (h : p.Answers q f p') : p.active = true ∧ p'.active = true := by
  cases h with
  | iBlock active block fresh sends => exact ⟨active, sends.active_eq.trans active⟩
  | chainAck active ack fresh chaining sends => exact ⟨active, sends.active_eq.trans active⟩
  | wtx active wtx owes sends => exact ⟨active, sends.active_eq.trans active⟩
  | again active block known last number => exact ⟨active, active⟩

end Picc

/-- The reader's next I-block is new to the card: the card is out of the protocol state, or has the other
block number. -/
def InStep (blockNum : Byte) (p : Picc) : Prop := p.active = true → numberBit blockNum ≠ p.number

/-! ### What the reader puts on the air -/

theorem pcb_kinds (pcb : Byte) :
    ¬ ((pcb &&& pcbClassMask == pcbClassIBlock) = true ∧ (pcb &&& 0xF6 == pcbRBlockBase) = true) ∧
    ¬ ((pcb &&& pcbClassMask == pcbClassIBlock) = true ∧ (pcb &&& pcbSWtxMask == pcbSWtx) = true) ∧
    ¬ ((pcb &&& 0xF6 == pcbRBlockBase) = true ∧ (pcb &&& pcbSWtxMask == pcbSWtx) = true) := by
  have h : ∀ pcb : Byte, ¬ ((pcb &&& pcbClassMask == pcbClassIBlock) = true ∧ (pcb &&& 0xF6 == pcbRBlockBase) = true) ∧
      ¬ ((pcb &&& pcbClassMask == pcbClassIBlock) = true ∧ (pcb &&& pcbSWtxMask == pcbSWtx) = true) ∧
      ¬ ((pcb &&& 0xF6 == pcbRBlockBase) = true ∧ (pcb &&& pcbSWtxMask == pcbSWtx) = true) := by decide
  exact h pcb

theorem isRAck_of_isIBlock {f : Frame} (h : isIBlock f = true) : isRAck f = false :=
  Bool.eq_false_iff.mpr fun hr => (pcb_kinds (u8At f 0)).1 ⟨h, hr⟩

theorem isSWtx_of_isIBlock {f : Frame} (h : isIBlock f = true) : isSWtx f = false :=
  Bool.eq_false_iff.mpr fun hw => (pcb_kinds (u8At f 0)).2.1 ⟨h, hw⟩

theorem isSWtx_of_isRAck {f : Frame} (h : isRAck f = true) : isSWtx f = false :=
  Bool.eq_false_iff.mpr fun hw => (pcb_kinds (u8At f 0)).2.2 ⟨h, hw⟩

/-- The frame moves the reader's number on: it acknowledges a fragment, or it ends the response. -/
def movesNumber (f : Frame) : Bool := isRAck f || (isIBlock f && !isChained f)

theorem movesNumber_of_isRAck {f : Frame} (h : isRAck f = true) : movesNumber f = true := by
  rw [movesNumber, h, Bool.true_or]

theorem movesNumber_of_isIBlock {f : Frame} (h : isIBlock f = true) : movesNumber f = !isChained f := by
  rw [movesNumber, isRAck_of_isIBlock h, h, Bool.false_or, Bool.true_and]

theorem movesNumber_of_isSWtx {f : Frame} (h : isSWtx f = true) : movesNumber f = false := by
  have hI : isIBlock f = false := Bool.eq_false_iff.mpr fun hI => by simp [isSWtx_of_isIBlock hI] at h
  have hack : isRAck f = false := Bool.eq_false_iff.mpr fun hr => by simp [isSWtx_of_isRAck hr] at h
  rw [movesNumber, hI, hack, Bool.false_and, Bool.or_false]

namespace Picc

variable {p : Picc} {q : Frame}

/-- A new I-block is acknowledged or answered under the number it carries. -/
theorem expects_iBlock (hq : isIBlock q = true) (hnew : p.active = true → numberOf q ≠ p.number) :
    p.Expects q (numberOf q) (if isChained q then .ack else .response) := by
  intro f p' h
  cases h with
  | iBlock active block fresh sends => exact ⟨p.toggled, (Bool.eq_not_of_ne fresh).symm, sends⟩
  | chainAck active ack fresh chaining sends => exact absurd (isRAck_of_isIBlock hq) (by simp [ack])
  | wtx active wtx owes sends => exact absurd (isSWtx_of_isIBlock hq) (by simp [wtx])
  | again active block known last number => exact absurd known (hnew active)

/-- An acknowledgement with the other number brings the next block of the chain. -/
theorem expects_chainAck (hq : isRAck q = true) (hnew : p.active = true → numberOf q ≠ p.number) :
    p.Expects q (numberOf q) .response := by
  intro f p' h
  cases h with
  | iBlock active block fresh sends => exact absurd (isRAck_of_isIBlock block) (by simp [hq])
  | chainAck active ack fresh chaining sends => exact ⟨p.toggled, (Bool.eq_not_of_ne fresh).symm, sends⟩
  | wtx active wtx owes sends => exact absurd (isSWtx_of_isRAck hq) (by simp [wtx])
  | again active block known last number => exact absurd known (hnew active)

/-- A block that is new to the card toggles its number. -/
theorem Answers.number_new {p p' : Picc} {q f : Frame} (h : p.Answers q f p') (hwtx : isSWtx q = false)
    (hnew : numberOf q ≠ p.number) : p'.number = !p.number := by
  cases h with
  | iBlock active block fresh sends => exact sends.number_eq
  | chainAck active ack fresh chaining sends => exact sends.number_eq
  | wtx active wtx owes sends => exact absurd wtx (by simp [hwtx])
  | again active block known last number => exact absurd known hnew

/-- An S(WTX) does not. -/
theorem Answers.number_wtx {p p' : Picc} {q f : Frame} (h : p.Answers q f p') (hwtx : isSWtx q = true) :
    p'.number = p.number := by
  cases h with
  | iBlock active block fresh sends => exact absurd (isSWtx_of_isIBlock block) (by simp [hwtx])
  | chainAck active ack fresh chaining sends => exact absurd (isSWtx_of_isRAck ack) (by simp [hwtx])
  | wtx active wtx owes sends => exact sends.number_eq
  | again active block known last number => rfl

/-- An answered S(WTX) brings what the card owed before. -/
theorem expects_wtx {owed : Owed} (hq : isSWtx q = true) (howes : p.owes = some owed) :
    p.Expects q p.number owed := by
  intro f p' h
  cases h with
  | iBlock active block fresh sends => exact absurd (isSWtx_of_isIBlock block) (by simp [hq])
  | chainAck active ack fresh chaining sends => exact absurd (isSWtx_of_isRAck ack) (by simp [hq])
  | wtx active wtx owes sends =>
      obtain rfl := Option.some.inj (owes.symm.trans howes)
      exact ⟨p, rfl, sends⟩
  | again active block known last number =>
      rcases block with block | ack
      · exact absurd (isSWtx_of_isIBlock block) (by simp [hq])
      · exact absurd (isSWtx_of_isRAck ack) (by simp [hq])

end Picc

/-- The acknowledgement of a chained response block. -/
theorem buildChainedAck_spec (blockNum cid : Byte) (pcbHasCid : Bool) :
    isRAck (buildChainedAck blockNum pcbHasCid cid) = true ∧
      numberOf (buildChainedAck blockNum pcbHasCid cid) = numberBit blockNum := by
  have hpcb : ∀ b : Byte,
      ((pcbRBlockBase ||| b &&& blockNumMask) &&& 0xF6 == pcbRBlockBase) = true ∧
      (((pcbRBlockBase ||| b &&& blockNumMask) ||| pcbCidBit) &&& 0xF6 == pcbRBlockBase) = true ∧
      numberBit (pcbRBlockBase ||| b &&& blockNumMask) = numberBit b ∧
      numberBit ((pcbRBlockBase ||| b &&& blockNumMask) ||| pcbCidBit) = numberBit b := by decide
  obtain ⟨hack, hackCid, hnum, hnumCid⟩ := hpcb blockNum
  cases pcbHasCid with
  | false => exact ⟨hack, hnum⟩
  | true => exact ⟨hackCid, hnumCid⟩

/-- The S(WTX) of a card can be echoed. -/
theorem buildWtxEcho_isSome {f : Frame} (inf : rxHdrSkip (u8At f 0) < f.length)
    (multiplier : 1 ≤ u8At f (rxHdrSkip (u8At f 0)) &&& wtxmMask ∧
      u8At f (rxHdrSkip (u8At f 0)) &&& wtxmMask ≤ 59) :
    ∃ echo, buildWtxEcho wtxEchoTxCap f (rxHdrSkip (u8At f 0)) = some echo := by
  have hskip : rxHdrSkip (u8At f 0) ≤ 3 := by
    unfold rxHdrSkip
    split <;> split <;> omega
  unfold buildWtxEcho
  rw [if_neg (by unfold wtxEchoTxCap; omega)]
  dsimp only
  rw [if_neg (by simp only [not_or, BitVec.not_lt]; exact multiplier)]
  exact ⟨_, rfl⟩

end NeroReader.IsoDep
