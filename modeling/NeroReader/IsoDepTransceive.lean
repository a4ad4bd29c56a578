import Mathlib.Algebra.Group.Nat.Defs
import NeroReader.Driver
import NeroReader.IsoDepFrame

/-!
`reader_security_key_send_i_block`: one command APDU out, one response in. The function waits for
the card in two places, after an I-block of the command and in the receive loop, so it is a driver
with two kinds of waiting state; one step is one turn of the loop it waits in. Every answer comes
with the clock and the host's abort request as the reader finds them when it looks at the frame.
-/

namespace NeroReader.IsoDep

open Driver

/-! ### The session -/

def chunkHardCap : Nat := 48
def iBlockTxBufLen : Nat := 832
def txNadValue : Byte := 0x01
def chainRnakMax : Nat := 2
def wtxEchoTxCap : Nat := 8
def claProprietaryShort : Byte := 0x80

/-- The link parameters an activation leaves behind and the reader's block number. The reader
addresses a card by a CID it chose itself, so the CID is in the range the protocol allows. -/
structure Session where
  pcbHasCid : Bool
  cid : Byte
  cid_le : cid ≤ 14
  haveTc : Bool
  tcByte : Byte
  picFrameMax : Nat
  fwtUs : Nat
  blockNum : Byte
  deriving DecidableEq

theorem zero_le_cidMax : (0 : Byte) ≤ 14 := by decide

theorem one_le_cidMax : (1 : Byte) ≤ 14 := by decide

def fwtUsFromFwi (fwi : Nat) : Nat :=
  let fwi := if 14 < fwi then 4 else fwi
  (4096 * 2 ^ fwi * 1000000 + 13560000 - 1) / 13560000

namespace Session

/-- The link of a card whose ATS says nothing but its frame size. -/
def plain (picFrameMax : Nat) : Session :=
  ⟨false, 0, zero_le_cidMax, false, 0, picFrameMax, fwtUsFromFwi 4, 0⟩

variable (s : Session)

def txIncludeNad : Bool := s.haveTc && (s.tcByte &&& 0x01) != 0

def txHdrLen (includeNadByte : Bool) : Nat :=
  iBlockTxHdrLen s.pcbHasCid (includeNadByte && s.txIncludeNad)

def pickInfOffset (rx : Frame) : Nat :=
  IsoDep.pickInfOffset rx s.pcbHasCid s.cid s.haveTc s.tcByte

def apduChunkBudget (txHdrLen : Nat) : Nat := IsoDep.apduChunkBudget s.picFrameMax txHdrLen

/-- A NAD byte goes out only with a CID, with an APDU that is not proprietary, and unchained. -/
def txAddNad (apdu : Frame) : Bool :=
  if s.txIncludeNad = false then false
  else if s.pcbHasCid = false then false
  else if 1 ≤ apdu.length ∧ u8At apdu 0 = claProprietaryShort then false
  else decide (apdu.length ≤ s.apduChunkBudget (s.txHdrLen true))

end Session

/-! ### Requests, answers and results -/

structure Request where
  frame : Frame
  timeoutMs : Nat
  deriving DecidableEq, Repr

/-- What a transceive brought: the FIFO bytes (none on silence), and what the reader then reads off
the clock (milliseconds since the call began) and the host's abort request. -/
structure Answer where
  frame : Frame
  elapsedMs : Nat
  abortPending : Bool
  deriving DecidableEq, Repr

abbrev Exchange := Request × Answer

def silence : Answer := ⟨[], 0, false⟩

inductive Err where
  | transceiveTimeout
  | txChainWtxDeadline
  | txChainWtxShort
  | txChainWtxOverflow
  | txChainWtxEchoTimeout
  | txChainRnakLimit
  | txChainRnakResendTimeout
  | txChainUnexpectedFrame
  | recvWtxDeadline
  | recvWtxShort
  | recvWtxOverflow
  | recvWtxEchoTimeout
  | recvIBlockShort
  | recvChainedAckTimeout
  | recvIBlockNumber
  | recvInfDropped
  | incompleteIBlock
  | txChainCcidAbort
  | recvCcidAbort
  deriving DecidableEq, Repr

/-- The bytes of a response (`total` of them), or the failure the function reports as -1; the two
checks before the first frame leave no error code. -/
inductive Received where
  | ok (resp : Frame)
  | err (code : Option Err)
  deriving DecidableEq, Repr

/-- What a call leaves: its result and the reader's block number. -/
structure Returned where
  received : Received
  blockNum : Byte
  deriving DecidableEq, Repr

/-! ### Waiting states -/

/-- An I-block of the command is on the air, or an S(WTX) of the card is being answered in its
place. -/
structure TxWait where
  off : Nat
  block : IBlockTx
  blkSent : Byte
  blockNum : Byte
  rnakRetries : Nat
  onSilence : Err
  deriving DecidableEq, Repr

/-- The receive loop waits for the next frame. -/
structure RxWait where
  resp : Frame
  expectedBlock : Byte
  blockNum : Byte
  onSilence : Err
  deriving DecidableEq, Repr

inductive Wait where
  | tx (w : TxWait)
  | rx (w : RxWait)
  deriving DecidableEq, Repr

abbrev Action := Next Request Wait Returned

/-- The arguments of a call that do not change in it. -/
structure Call where
  session : Session
  apdu : Frame
  respCap : Nat
  frameTimeoutMs : Nat
  deriving DecidableEq

namespace Call

variable (c : Call)

def addNad : Bool := c.session.txAddNad c.apdu
def txHdrLen : Nat := c.session.txHdrLen c.addNad
def fragCap : Nat := c.session.apduChunkBudget c.txHdrLen
def linkTimeoutMs : Nat := linkResponseTimeoutMs c.session.fwtUs

def fail (blockNum : Byte) (code : Err) : Action := .stop ⟨.err (some code), blockNum⟩

/-! ### S(WTX), in either loop -/

structure WtxErrs where
  deadline : Err
  abort : Err
  short : Err
  overflow : Err

def txWtxErrs : WtxErrs :=
  ⟨.txChainWtxDeadline, .txChainCcidAbort, .txChainWtxShort, .txChainWtxOverflow⟩

def rxWtxErrs : WtxErrs := ⟨.recvWtxDeadline, .recvCcidAbort, .recvWtxShort, .recvWtxOverflow⟩

/-- Echo the card's S(WTX) and go on waiting, unless the call is out of time or the host aborts. -/
def answerWtx (errs : WtxErrs) (blockNum : Byte) (a : Answer) (wait : Wait) : Action :=
  let hdrSkip := rxHdrSkip (u8At a.frame 0)
  if c.frameTimeoutMs < a.elapsedMs then fail blockNum errs.deadline
  else if a.abortPending then fail blockNum errs.abort
  else
    match buildWtxEcho wtxEchoTxCap a.frame hdrSkip with
    | none => fail blockNum (if a.frame.length < hdrSkip + 1 then errs.short else errs.overflow)
    | some echo => .send ⟨echo, wtxResponseTimeoutMs c.session.fwtUs a.frame hdrSkip⟩ wait

/-! ### The receive loop -/

/-- Behind the receive loop: a response that was not completed must not have collected anything. -/
def finishIncomplete (resp : Frame) (blockNum : Byte) : Action :=
  if 0 < resp.length then fail blockNum .incompleteIBlock else .stop ⟨.ok resp, blockNum⟩

/-- An I-block whose INF field was appended: the number toggles, a chained block is acknowledged
with the toggled number, the last one completes the response and commits the number. -/
def acceptIBlock (pcb : Byte) (resp : Frame) (expectedBlock blockNum : Byte) : Action :=
  let expectedBlock := expectedBlock ^^^ blockNumMask
  if pcb &&& pcbChainBit ≠ 0 then
    .send ⟨buildChainedAck expectedBlock c.session.pcbHasCid c.session.cid, c.linkTimeoutMs⟩
      (.rx ⟨resp, expectedBlock, blockNum, .recvChainedAckTimeout⟩)
  else .stop ⟨.ok resp, expectedBlock⟩

/-- One turn of the receive loop over a frame of at least one byte. -/
def rxFrame (resp : Frame) (expectedBlock blockNum : Byte) (a : Answer) : Action :=
  let pcb := u8At a.frame 0
  if isSWtx a.frame then
    c.answerWtx rxWtxErrs blockNum a (.rx ⟨resp, expectedBlock, blockNum, .recvWtxEchoTimeout⟩)
  else if pcb &&& pcbClassMask = pcbClassIBlock then
    if rxIBlockNumberMatches a.frame expectedBlock = false then fail blockNum .recvIBlockNumber
    else
      match iBlockInf a.frame (c.session.pickInfOffset a.frame) pcb with
      | none => fail blockNum .recvIBlockShort
      | some inf =>
          match appendInf c.respCap resp inf with
          | some resp' => c.acceptIBlock pcb resp' expectedBlock blockNum
          | none =>
              if 0 < inf.length then fail blockNum .recvInfDropped
              else c.acceptIBlock pcb resp expectedBlock blockNum
  else finishIncomplete resp blockNum

/-! ### The transmit loop -/

/-- The head of the transmit loop: put the next fragment on the air. When nothing is left the
receive loop starts over the last frame received. -/
def txFragment (off : Nat) (blockNum : Byte) (last : Answer) : Action :=
  if off < c.apdu.length then
    let blkSent := blockNum &&& blockNumMask
    match buildIBlockTx iBlockTxBufLen c.apdu off c.fragCap c.session.pcbHasCid c.session.cid
        c.addNad txNadValue blkSent with
    | none => .stop ⟨.err none, blockNum⟩
    | some block =>
        .send ⟨block.wire, c.linkTimeoutMs⟩ (.tx ⟨off, block, blkSent, blockNum, 0, .transceiveTimeout⟩)
  else if last.frame.length < 1 then finishIncomplete [] blockNum
  else c.rxFrame [] blockNum blockNum last

/-- The card asks for the same fragment again; at most twice for one fragment. -/
def txResend (w : TxWait) (limit : Err) : Action :=
  if chainRnakMax ≤ w.rnakRetries then fail w.blockNum limit
  else
    .send ⟨w.block.wire, c.linkTimeoutMs⟩
      (.tx { w with rnakRetries := w.rnakRetries + 1, onSilence := .txChainRnakResendTimeout })

/-- One turn of the loop that waits for the acknowledgement of a chained fragment. -/
def txChainFrame (w : TxWait) (a : Answer) : Action :=
  if isSWtx a.frame then
    c.answerWtx txWtxErrs w.blockNum a (.tx { w with onSilence := .txChainWtxEchoTimeout })
  else if rxIsChainNakForBlock a.frame w.blkSent c.session.pcbHasCid c.session.cid then
    c.txResend w .txChainRnakLimit
  else if rxIsChainAckForBlock a.frame w.blkSent c.session.pcbHasCid c.session.cid then
    c.txFragment (w.off + w.block.fragLen) (w.blockNum ^^^ blockNumMask) a
  else if (rxRblockBlock a.frame false c.session.pcbHasCid c.session.cid).isSome then
    c.txResend w .txChainUnexpectedFrame
  else fail w.blockNum .txChainUnexpectedFrame

/-- What the function does with the answer it was waiting for. -/
def onAnswer : Wait → Answer → Action
  | .tx w, a =>
      if a.frame.length < 1 then fail w.blockNum w.onSilence
      else if w.block.chainMore then c.txChainFrame w a
      else c.rxFrame [] w.blockNum w.blockNum a
  | .rx w, a =>
      if a.frame.length < 1 then fail w.blockNum w.onSilence
      else c.rxFrame w.resp w.expectedBlock w.blockNum a

@[simp] theorem onAnswer_tx (w : TxWait) (a : Answer) :
    c.onAnswer (.tx w) a =
      if a.frame.length < 1 then fail w.blockNum w.onSilence
      else if w.block.chainMore then c.txChainFrame w a
      else c.rxFrame [] w.blockNum w.blockNum a := rfl

@[simp] theorem onAnswer_rx (w : RxWait) (a : Answer) :
    c.onAnswer (.rx w) a =
      if a.frame.length < 1 then fail w.blockNum w.onSilence
      else c.rxFrame w.resp w.expectedBlock w.blockNum a := rfl

/-- The start of the call. -/
def start : Action :=
  if c.fragCap = 0 ∨ c.txHdrLen = 0 then .stop ⟨.err none, c.session.blockNum⟩
  else c.txFragment 0 c.session.blockNum silence

end Call

/-- `reader_security_key_send_i_block` against a card that gives these answers. -/
def sendIBlock (c : Call) (answers : List Answer) : Outcome Request Answer Wait Returned :=
  run c.onAnswer c.start answers

end NeroReader.IsoDep
