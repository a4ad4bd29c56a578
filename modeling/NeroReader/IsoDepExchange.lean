import NeroReader.IsoDepTransceive

/-!
`reader_security_key_send_apdu_timeout_ex`: a command and, when the caller asks for it, the GET
RESPONSE rounds its status words announce. Every round is one call of the I-block layer writing
behind what is kept of the response so far; a failed round ends its loop with what was kept.
-/

namespace NeroReader.IsoDep

open Driver

def swStatusWordLen : Nat := 2

/-- ISO 7816 GET RESPONSE for the announced number of bytes. -/
def getResponseApdu (remaining : Byte) : Frame := [0x00, 0xC0, 0x00, 0x00, remaining]

/-- NFCCTAP_GETRESPONSE, a case-1 APDU. -/
def ctapGetResponseApdu : Frame := [0x80, 0x11, 0x00, 0x00]

def iso7816ResponseSw (resp : Frame) : Option (Byte × Byte) :=
  if resp.length < 2 then none
  else some (u8At resp (resp.length - 2), u8At resp (resp.length - 1))

/-- A 61xx status word, with the byte count it announces. -/
def iso7816ResponseMoreData (resp : Frame) : Option Byte :=
  match iso7816ResponseSw resp with
  | none => none
  | some (sw1, sw2) => if sw1 = sw1MoreData then some sw2 else none

def ctapResponseMoreData (resp : Frame) : Bool :=
  match iso7816ResponseSw resp with
  | none => false
  | some (sw1, sw2) => sw1 == sw1MoreDataVendor && sw2 == sw2Success

def respTailCap (respBufLen used : Nat) : Nat := if respBufLen ≤ used then 0 else respBufLen - used

/-- Which round of the exchange the I-block layer works for, with the response bytes kept. -/
inductive Round where
  | command
  | getResponse (kept : Frame)
  | ctapGetResponse (kept : Frame)
  deriving DecidableEq, Repr

structure ApduCall where
  session : Session
  apdu : Frame
  respCap : Nat
  frameTimeoutMs : Nat
  follow : Bool
  deriving DecidableEq

/-- The exchange in progress: its arguments, the round, and the I-block call of the round. -/
structure Rounds where
  exchange : ApduCall
  round : Round
  call : Call
  deriving DecidableEq

abbrev ApduAction := Next Request (Rounds × Wait) Returned

namespace ApduCall

variable (x : ApduCall)

/-- The I-block call of a round, in the session as the rounds before left it. -/
def roundCall (blockNum : Byte) (apdu : Frame) (respCap : Nat) : Call :=
  ⟨{ x.session with blockNum := blockNum }, apdu, respCap, x.frameTimeoutMs⟩

/-- The end of the exchange, with one more look for a CRC. -/
def finish (resp : Frame) (blockNum : Byte) : ApduAction := .stop ⟨.ok (trimCrcSuffix resp), blockNum⟩

/-- The head of the NFCCTAP_GETRESPONSE loop. A round that fails before its first frame ends the
loop like one that fails later. -/
def ctapLoop (resp : Frame) (blockNum : Byte) : ApduAction :=
  let tailCap := respTailCap x.respCap resp.length
  if x.follow = true ∧ ctapResponseMoreData resp = true ∧ swStatusWordLen ≤ tailCap then
    let kept := resp.take (resp.length - swStatusWordLen)
    let call := x.roundCall blockNum ctapGetResponseApdu tailCap
    call.start.within (fun _ r => finish kept r.blockNum) ⟨x, .ctapGetResponse kept, call⟩
  else finish resp blockNum

/-- The head of the GET RESPONSE loop; the NFCCTAP loop follows it. -/
def isoLoop (resp : Frame) (blockNum : Byte) : ApduAction :=
  let tailCap := respTailCap x.respCap resp.length
  match iso7816ResponseMoreData resp with
  | none => x.ctapLoop resp blockNum
  | some remaining =>
      if x.follow = true ∧ swStatusWordLen ≤ tailCap then
        let kept := resp.take (resp.length - swStatusWordLen)
        let call := x.roundCall blockNum (getResponseApdu remaining) tailCap
        call.start.within (fun _ r => x.ctapLoop kept r.blockNum) ⟨x, .getResponse kept, call⟩
      else x.ctapLoop resp blockNum

theorem isoLoop_cases (resp : Frame) (blockNum : Byte) :
    x.isoLoop resp blockNum = x.ctapLoop resp blockNum ∨
      ∃ remaining, iso7816ResponseMoreData resp = some remaining ∧
        x.isoLoop resp blockNum =
          (x.roundCall blockNum (getResponseApdu remaining) (respTailCap x.respCap resp.length)).start.within
            (fun _ r => x.ctapLoop (resp.take (resp.length - swStatusWordLen)) r.blockNum)
            ⟨x, .getResponse (resp.take (resp.length - swStatusWordLen)),
              x.roundCall blockNum (getResponseApdu remaining) (respTailCap x.respCap resp.length)⟩ := by
  unfold isoLoop
  dsimp only
  split
  · exact Or.inl rfl
  rename_i remaining hmore
  split
  · exact Or.inr ⟨remaining, hmore, rfl⟩
  · exact Or.inl rfl

/-- What the exchange does with the end of a round. -/
def onReturned : Round → Returned → ApduAction
  | .command, ⟨.err code, blockNum⟩ => .stop ⟨.err code, blockNum⟩
  | .command, ⟨.ok resp, blockNum⟩ =>
      if resp.length < swStatusWordLen then .stop ⟨.ok resp, blockNum⟩
      else x.isoLoop (trimCrcSuffix resp) blockNum
  | .getResponse kept, ⟨.err _, blockNum⟩ => x.ctapLoop kept blockNum
  | .getResponse kept, ⟨.ok more, blockNum⟩ =>
      if more.length < swStatusWordLen then x.ctapLoop kept blockNum
      else x.isoLoop (trimCrcSuffix (kept ++ more)) blockNum
  | .ctapGetResponse kept, ⟨.err _, blockNum⟩ => finish kept blockNum
  | .ctapGetResponse kept, ⟨.ok more, blockNum⟩ =>
      if more.length < swStatusWordLen then finish kept blockNum
      else x.ctapLoop (trimCrcSuffix (kept ++ more)) blockNum

@[simp] theorem onReturned_command_err (code : Option Err) (blockNum : Byte) :
    x.onReturned .command ⟨.err code, blockNum⟩ = .stop ⟨.err code, blockNum⟩ := rfl

@[simp] theorem onReturned_command_ok (resp : Frame) (blockNum : Byte) :
    x.onReturned .command ⟨.ok resp, blockNum⟩ =
      if resp.length < swStatusWordLen then .stop ⟨.ok resp, blockNum⟩
      else x.isoLoop (trimCrcSuffix resp) blockNum := rfl

@[simp] theorem onReturned_getResponse_ok (kept more : Frame) (blockNum : Byte) :
    x.onReturned (.getResponse kept) ⟨.ok more, blockNum⟩ =
      if more.length < swStatusWordLen then x.ctapLoop kept blockNum
      else x.isoLoop (trimCrcSuffix (kept ++ more)) blockNum := rfl

@[simp] theorem onReturned_ctapGetResponse_ok (kept more : Frame) (blockNum : Byte) :
    x.onReturned (.ctapGetResponse kept) ⟨.ok more, blockNum⟩ =
      if more.length < swStatusWordLen then finish kept blockNum
      else x.ctapLoop (trimCrcSuffix (kept ++ more)) blockNum := rfl

def command : Rounds := ⟨x, .command, x.roundCall x.session.blockNum x.apdu x.respCap⟩

end ApduCall

/-- A round's steps are the I-block layer's. -/
def Rounds.step (r : Rounds) : Wait → Answer → Action := r.call.onAnswer

/-- A round's end goes to the exchange. -/
def Rounds.cont (r : Rounds) : Returned → ApduAction := r.exchange.onReturned r.round

/-- `reader_security_key_send_apdu_timeout_ex` against a card that gives these answers. -/
def sendApduTimeoutEx (x : ApduCall) (answers : List Answer) :
    Outcome Request Answer (Rounds × Wait) Returned :=
  run (nested Rounds.step Rounds.cont) (x.command.call.start.within Rounds.cont x.command) answers

/-- An exchange whose command returned goes on from the decision taken there. -/
theorem sendApduTimeoutEx_of_command {x : ApduCall} {answers : List Answer} {r : Returned}
    (h : (sendIBlock x.command.call answers).final = .stop r) :
    sendApduTimeoutEx x answers =
      (run (nested Rounds.step Rounds.cont) (x.onReturned .command r)
        (sendIBlock x.command.call answers).rest).after (sendIBlock x.command.call answers).trace := by
  have hround : (run x.command.step x.command.call.start answers).final = .stop r := h
  unfold sendApduTimeoutEx
  rw [run_within, hround]
  rfl

/-- What an exchange that has ended returned. -/
def returned {St : Type} (o : Outcome Request Answer St Returned) : Option Received :=
  match o.final with
  | .send _ _ => none
  | .stop r => some r.received

/-- Without GET RESPONSE rounds the exchange is one call and two trims. -/
theorem onReturned_single {x : ApduCall} (hx : x.follow = false) {resp : Frame}
    (hlen : 2 ≤ resp.length) (blockNum : Byte) :
    x.onReturned .command ⟨.ok resp, blockNum⟩ =
      .stop ⟨.ok (trimCrcSuffix (trimCrcSuffix resp)), blockNum⟩ := by
  have hloop : x.ctapLoop (trimCrcSuffix resp) blockNum =
      .stop ⟨.ok (trimCrcSuffix (trimCrcSuffix resp)), blockNum⟩ := by
    unfold ApduCall.ctapLoop
    dsimp only
    rw [if_neg (fun h => by rw [hx] at h; cases h.1)]
    rfl
  rw [ApduCall.onReturned_command_ok, if_neg (by rw [swStatusWordLen]; omega)]
  unfold ApduCall.isoLoop
  dsimp only
  split
  · exact hloop
  · rw [if_neg (fun h => by rw [hx] at h; cases h.1)]
    exact hloop

end NeroReader.IsoDep
