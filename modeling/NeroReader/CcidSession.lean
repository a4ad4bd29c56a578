import NeroReader.CcidCodec

/-!
The state of the CCID reader and its slot events: a tag comes into the field, leaves it, the removal
that waited for the host falls due. A removal that meets an open session is complete at once; one that
follows a session by less than the deferral time waits for its deadline or for the next detection.
-/

namespace NeroReader.Ccid

open IsoDep
open Storage (Word TagKind)

def removeDeferMs : BitVec 32 := 250

inductive SessionOwner where
  | none
  | ccid
  deriving DecidableEq, Repr

/-- `reader_ccid_context_t` with the session owner and the abort request of the USB control endpoint.
The two chain buffers are the bytes in use, so a length field is the length of its list. -/
structure Reader where
  sess : Bool
  cardPresent : Bool
  isoSessionOpen : Bool
  type4SecurityKeyApp : Bool
  removeDeferred : Bool
  removeDeferUntilMs : BitVec 32
  tagKind : TagKind
  protocolNum : Byte
  timeExtensionSeq : Byte
  chainActive : Bool
  chainBuf : Frame
  chainOff : Nat
  cmdChainActive : Bool
  cmdChainBuf : Frame
  owner : SessionOwner
  abortRequest : Option (Byte × Byte)
  deriving DecidableEq, Repr

/-- What one event did: the reader after it, the bulk IN transfers, the payloads given to
`dispatchHostPayload` and the slot-change notifications. -/
structure Turn where
  reader : Reader
  sent : List Frame
  dispatched : List Frame
  notified : List Bool
  deriving DecidableEq, Repr

namespace Turn

def silent (r : Reader) : Turn := ⟨r, [], [], []⟩

def reply (r : Reader) (rsp : Response) : Turn := ⟨r, [rsp.frame], [], []⟩

/-- The next step of the same event, behind what the event has put out so far. -/
def andThen (t : Turn) (next : Reader → Turn) : Turn :=
  let u := next t.reader
  ⟨u.reader, t.sent ++ u.sent, t.dispatched ++ u.dispatched, t.notified ++ u.notified⟩

end Turn

/-- `int32_t` comparison of the wrapped difference. -/
def deadlineElapsed (now deadline : BitVec 32) : Bool := decide (0 ≤ (now - deadline).toInt)

def protocolForTag (_ : TagKind) : Byte := protocolNumT1

namespace Reader

/-- The state after reset. -/
def reset : Reader where
  sess := false
  cardPresent := false
  isoSessionOpen := false
  type4SecurityKeyApp := false
  removeDeferred := false
  removeDeferUntilMs := 0
  tagKind := .none
  protocolNum := protocolNumT1
  timeExtensionSeq := 0
  chainActive := false
  chainBuf := []
  chainOff := 0
  cmdChainActive := false
  cmdChainBuf := []
  owner := .none
  abortRequest := none

variable (r : Reader)

def clearXfrResponseChain : Reader := { r with chainActive := false, chainBuf := [], chainOff := 0 }

def clearXfrCommandChain : Reader := { r with cmdChainActive := false, cmdChainBuf := [] }

def setProtocol (protocolNum : Byte) : Reader := { r with protocolNum := protocolNum }

/-- The sequence number that time-extension frames carry from now on. -/
def beginTimeExtension (seq : Byte) : Reader := { r with timeExtensionSeq := seq }

def currentIccLevel : Byte :=
  if r.cardPresent = false then iccNoIcc else if r.sess then iccActive else iccInactive

def replyParamStatus : Byte :=
  if r.cardPresent = false then iccNoIcc else if r.sess then iccActive else iccInactive

def teardownSession : Reader :=
  let r := r.clearXfrResponseChain.clearXfrCommandChain
  { r with
    type4SecurityKeyApp := false
    isoSessionOpen := false
    sess := false
    owner := if r.owner = .ccid then .none else r.owner }

def noteHostSessionActivity (now : BitVec 32) : Reader :=
  if r.sess = false then r
  else { r with removeDeferred := false, removeDeferUntilMs := now + removeDeferMs }

/-- The abort request of the control endpoint, which takes slot 0 only. -/
def abortRequested (seq : Byte) : Reader := { r with abortRequest := some (0, seq) }

/-- The request that arrives while a command is handled, if any. -/
def abortArrives : Option Byte → Reader
  | none => r
  | some seq => r.abortRequested seq

def clearAbortRequest (slot seq : Byte) : Reader :=
  if r.abortRequest = some (slot, seq) then { r with abortRequest := none } else r

def completeCardRemoval : Turn :=
  let removed := { r with
    cardPresent := false
    removeDeferred := false
    removeDeferUntilMs := 0
    tagKind := .none
    type4SecurityKeyApp := false }
  ⟨removed.teardownSession, [], [], if r.cardPresent then [false] else []⟩

def onTagDetected (kind : TagKind) : Turn :=
  let settled := if r.removeDeferred then r.completeCardRemoval else .silent r
  settled.andThen fun r =>
    let r := { r.clearXfrResponseChain with
      removeDeferred := false
      tagKind := kind
      type4SecurityKeyApp := false
      protocolNum := protocolForTag kind }
    if r.cardPresent then .silent r else ⟨{ r with cardPresent := true }, [], [], [true]⟩

def onTagRemovedFromField (now : BitVec 32) : Turn :=
  if r.cardPresent = false then .silent r
  else if r.sess then r.completeCardRemoval
  else if deadlineElapsed now r.removeDeferUntilMs = false then .silent { r with removeDeferred := true }
  else r.completeCardRemoval

/-- The first half of `reader_ccid_poll`. -/
def pollDeferredRemoval (now : BitVec 32) : Turn :=
  if r.removeDeferred ∧ (r.sess = false ∨ deadlineElapsed now r.removeDeferUntilMs) then
    r.completeCardRemoval
  else .silent r

end Reader

/-! ### Answers to reset -/

def historicalBytesMax : Nat := 15

def atrCheck (atr : Frame) : Byte := (atr.drop 1).foldl (· ^^^ ·) 0

/-- The answer to reset that stands for a Type 4 card, with its ATS as historical bytes. -/
def copyAtsAsPcscAtr (ats : Frame) (cap : Nat) : Option Frame :=
  let hist := ats.take historicalBytesMax
  let atr : Frame := [0x3B, 0x80 ||| BitVec.ofNat 8 hist.length, 0x01] ++ hist
  if ats = [] then none
  else if cap < hist.length + 4 then none
  else some (atr ++ [atrCheck atr])

def storageCardCodeForTag : TagKind → Option (Byte × Byte × Byte)
  | .type2 => some (0x03, 0x00, 0x03)
  | .type5 => some (0x0B, 0x00, 0x12)
  | .none | .type4 => none

def copyStorageCardAtr (kind : TagKind) (cap : Nat) : Option Frame :=
  if cap < 20 then none
  else
    match storageCardCodeForTag kind with
    | none => none
    | some (standard, cardHi, cardLo) =>
        let atr : Frame := [0x3B, 0x8F, 0x80, 0x01, 0x80, 0x4F, 0x0C, 0xA0, 0x00, 0x00, 0x03, 0x06,
          standard, cardHi, cardLo, 0x00, 0x00, 0x00, 0x00]
        some (atr ++ [atrCheck atr])

theorem copyAtsAsPcscAtr_length {ats atr : Frame} {cap : Nat} (h : copyAtsAsPcscAtr ats cap = some atr) :
    atr.length ≤ cap := by
  unfold copyAtsAsPcscAtr at h
  dsimp only at h
  split at h
  · simp at h
  split at h
  · simp at h
  obtain rfl := Option.some.inj h
  simp only [List.length_append, List.length_cons, List.length_nil]
  omega

theorem copyStorageCardAtr_length {kind : TagKind} {cap : Nat} {atr : Frame}
    (h : copyStorageCardAtr kind cap = some atr) : atr.length ≤ cap := by
  unfold copyStorageCardAtr at h
  split at h
  · simp at h
  split at h
  · simp at h
  obtain rfl := Option.some.inj h
  simp only [List.length_append, List.length_cons, List.length_nil]
  omega

/-- A storage tag always has an answer to reset. -/
theorem copyStorageCardAtr_isSome {kind : TagKind} {cap : Nat} (hkind : kind = .type2 ∨ kind = .type5)
    (hcap : 20 ≤ cap) : ∃ atr, copyStorageCardAtr kind cap = some atr := by
  unfold copyStorageCardAtr
  rw [if_neg (by omega)]
  rcases hkind with rfl | rfl <;> exact ⟨_, rfl⟩

end NeroReader.Ccid
