import Mathlib.Algebra.Group.Nat.Even
import NeroReader.IsoDepInStep
import NeroReader.Machine
import NeroReader.SecurityKeyRelay

/-!
Sessions of the security-key relay with a card. The relay runs its programs one after another, a frame at a
time, against a card that keeps its own block number; frames may be lost, the host may ask for an abort at
any moment, and the card may be selected again or not. In every state in which a command APDU can go out,
the reader's number is new to the card, as long as every interrupted call is followed by a re-activation
or the card has heard an even number of its blocks.
-/

namespace NeroReader.SecurityKey

open Driver IsoDep HostApdu

/-- What the reader is doing. -/
inductive Doing where
  | idle
  | running (program : Relay Frame)
  | waiting (request : Request) (rounds : Rounds) (wait : Wait) (next : Received → Relay Frame)

/-- The reader and the card. -/
structure Link where
  session : Session
  picc : Picc
  doing : Doing

/-- The card behind an attempt to re-open the session. If the reader took an ATS, the card has just sent
it; otherwise the card may have missed the DESELECT, have been deselected, or have sent an ATS that the
reader did not take. -/
def Reselects (p : Picc) (opened : Bool) (p' : Picc) : Prop :=
  if opened then p' = .activated else p' = p ∨ p' = .halted ∨ p' = .activated

/-- One event of the link: a command of the host, a step the program takes by itself, a frame from the
card or silence behind a request that the card has heard or not, a re-activation, a look at the host's abort
request. -/
inductive Event where
  | host (apdu : Frame) (rspCap : Nat)
  | go
  | answered (heard : Bool) (answer : IsoDep.Answer) (picc : Picc)
  | reopened (reopening : Reopening) (picc : Picc)
  | abortAsked (pending : Bool)

namespace Link

variable (s : Link)

/-- The reader goes on from an action of the call in progress. -/
def act (action : ApduAction) (next : Received → Relay Frame) : Link :=
  match action with
  | .send request (rounds, wait) => { s with doing := .waiting request rounds wait next }
  | .stop r => { s with session := { s.session with blockNum := r.blockNum }, doing := .running (next r.received) }

/-- The first action of an APDU exchange. -/
def begin (x : ApduCall) : ApduAction := x.command.call.start.within Rounds.cont x.command

/-- The exchange that a `sendApdu` of the program makes. -/
def exchange (apdu : Frame) (respCap frameTimeoutMs : Nat) : ApduCall :=
  ⟨s.session, apdu, respCap, frameTimeoutMs, false⟩

end Link

namespace Event

/-- What a conforming card and the reader's own order of steps allow. -/
def Allowed (s : Link) : Event → Prop
  | .host _ _ => s.doing = .idle
  | .go =>
      (∃ result, s.doing = .running (.done result)) ∨
      (∃ apdu respCap timeout next, s.doing = .running (.sendApdu apdu respCap timeout next)) ∨
      (∃ next, s.doing = .running (.probeCanUpgradeCid next))
  | .answered heard a picc =>
      ∃ request rounds wait next, s.doing = .waiting request rounds wait next ∧
        Picc.Reacts rounds.call.session s.picc request.frame a.frame heard picc
  | .reopened r picc =>
      ∃ next, s.doing = .running (.recoverSession next) ∧ Reselects s.picc (s.session.recoverSession r).isSome picc
  | .abortAsked _ => ∃ next, s.doing = .running (.ccidAbortPending next)

def next (s : Link) : Event → Link
  | .host apdu rspCap => { s with doing := .running (apduExchange apdu rspCap) }
  | .go =>
      match s.doing with
      | .running (.done _) => { s with doing := .idle }
      | .running (.sendApdu apdu respCap timeout next) => s.act (Link.begin (s.exchange apdu respCap timeout)) next
      | .running (.probeCanUpgradeCid next) => { s with doing := .running (next s.session.probeCanUpgradeCid) }
      | _ => s
  | .answered _ a picc =>
      match s.doing with
      | .waiting _ rounds wait next =>
          { s with picc := picc }.act (nested Rounds.step Rounds.cont (rounds, wait) a) next
      | _ => s
  | .reopened r picc =>
      match s.doing with
      | .running (.recoverSession next) =>
          match s.session.recoverSession r with
          | none => ⟨s.session, picc, .running (next false)⟩
          | some opened => ⟨opened, picc, .running (next true)⟩
      | _ => s
  | .abortAsked pending =>
      match s.doing with
      | .running (.ccidAbortPending next) => { s with doing := .running (next pending) }
      | _ => s

end Event

/-- The link over whole sessions, from a session that was just opened. -/
def link (session : Session) : Machine Link Event where
  init := ⟨{ session with blockNum := 0 }, .activated, .idle⟩
  allowed := Event.Allowed
  next := Event.next

/-- The program re-opens the session before it does anything else on the link. -/
def reopens (session : Session) : Relay Frame → Bool
  | .recoverSession _ => true
  | .probeCanUpgradeCid next => reopens session (next session.probeCanUpgradeCid)
  | _ => false

/-! ### The condition -/

/-- How many blocks the card has heard since the reader's number last settled, one event on. The number settles where
a call begins, where a frame moves it on, and where the card is selected anew or deselected; an S(WTX) does not
count. -/
def Event.heardBlocks (n : Nat) (s : Link) : Event → Nat
  | .go => match s.doing with
      | .running (.sendApdu _ _ _ _) => 0
      | _ => n
  | .answered heard a _ => match s.doing with
      | .waiting request rounds wait _ =>
          if movesNumber a.frame = true ∧ ¬ rounds.call.Interrupts wait a then 0
          else if heard = true ∧ isSWtx request.frame = false then n + 1 else n
      | _ => n
  | .reopened r picc => if (s.session.recoverSession r).isSome = true ∨ picc ≠ s.picc then 0 else n
  | _ => n

def heardBlocks (history : List (Link × Event)) : Nat := history.foldl (fun n x => x.2.heardBlocks n x.1) 0

/-- **No harm.** An answer that interrupts a call comes when the card has heard an even number of blocks, or where the
program re-opens the session. A re-activation that fails leaves the card deselected, or activated with the reader's
number still 0, or as it was after an even number of blocks. -/
def Harmless (n : Nat) (s : Link) : Event → Prop
  | .answered heard a picc =>
      ∀ request rounds wait next, s.doing = .waiting request rounds wait next → rounds.call.Interrupts wait a →
        Even (Event.heardBlocks n s (.answered heard a picc)) ∨ ∀ code, reopens s.session (next (.err code)) = true
  | .reopened r picc => s.session.recoverSession r = none →
      picc = .halted ∨ picc = .activated ∧ numberBit s.session.blockNum = false ∨ picc = s.picc ∧ Even n
  | _ => True

/-- Every event of the history did no harm. -/
def HarmlessRun (history : List (Link × Event)) : Prop :=
  ∀ before x after, history = before ++ x :: after → Harmless (heardBlocks before) x.1 x.2

/-- A command APDU can go out. -/
def Ready (s : Link) : Prop :=
  s.doing = .idle ∨ ∃ apdu respCap timeout next, s.doing = .running (.sendApdu apdu respCap timeout next)

/-! ### The invariant -/

/-- The reader's number and the card's differ exactly after an even number of blocks. -/
def Settled (n : Nat) (blockNum : Byte) (p : Picc) : Prop := InStep blockNum p ↔ Even n

/-- Reader and card while the relay is at work. -/
def Agree (n : Nat) (s : Link) : Prop :=
  match s.doing with
  | .idle => Settled n s.session.blockNum s.picc ∧ Even n
  | .running program => Settled n s.session.blockNum s.picc ∧ (Even n ∨ reopens s.session program = true)
  | .waiting request rounds wait _ =>
      rounds.round = .command ∧ rounds.exchange.follow = false ∧ Call.Waits s.picc request wait ∧
        Settled n wait.blockNum s.picc

theorem heardBlocks_append (history : List (Link × Event)) (s : Link) (e : Event) :
    heardBlocks (history ++ [(s, e)]) = e.heardBlocks (heardBlocks history) s := by
  rw [heardBlocks, List.foldl_append]
  rfl

theorem HarmlessRun.of_append {history : List (Link × Event)} {s : Link} {e : Event}
    (h : HarmlessRun (history ++ [(s, e)])) : HarmlessRun history ∧ Harmless (heardBlocks history) s e := by
  refine ⟨fun before x after heq => h before x (after ++ [(s, e)]) ?_, h history (s, e) [] rfl⟩
  rw [heq, List.append_assoc, List.cons_append]

theorem HarmlessRun.append {history : List (Link × Event)} {s : Link} {e : Event} (h : HarmlessRun history)
    (hlast : Harmless (heardBlocks history) s e) : HarmlessRun (history ++ [(s, e)]) := by
  intro before x after heq
  rcases List.eq_nil_or_concat after with rfl | ⟨rest, y, rfl⟩
  · obtain ⟨rfl, hx⟩ := List.append_inj' heq rfl
    obtain rfl := List.singleton_injective hx
    exact hlast
  · rw [List.concat_eq_append, ← List.cons_append, ← List.append_assoc] at heq
    exact h before x rest (List.append_inj' heq rfl).1

theorem settled_zero {blockNum : Byte} {p : Picc} (h : InStep blockNum p) : Settled 0 blockNum p :=
  iff_of_true h (by decide)

/-- **The parity of an answer.** A block that the card hears is new to it, so its number toggles and the count grows;
an S(WTX) and a request that is lost leave both. -/
theorem settled_answered {session : Session} {p p' : Picc} {q : Request} {received : Frame} {heard : Bool}
    {number blockNum : Byte} {n : Nat} (hnew : Call.IsNew p q number)
    (hreacts : Picc.Reacts session p q.frame received heard p') (h : Settled n blockNum p) :
    Settled (if heard = true ∧ isSWtx q.frame = false then n + 1 else n) blockNum p' := by
  cases heard with
  | false =>
      obtain ⟨-, rfl⟩ := hreacts
      exact h
  | true =>
      obtain ⟨f, hanswers, -, -⟩ := hreacts
      obtain ⟨hactive, hactive'⟩ := hanswers.active
      rcases hnew with hwtx | ⟨hwtx, hnumber, hstep⟩
      · rw [if_neg (by simp [hwtx])]
        have hkept : InStep blockNum p' ↔ InStep blockNum p := by
          rw [InStep, InStep, hanswers.number_wtx hwtx, hactive, hactive']
        exact hkept.trans h
      · rw [if_pos ⟨rfl, hwtx⟩]
        have htoggled := hanswers.number_new hwtx (hnumber ▸ hstep hactive)
        have hmoved : InStep blockNum p' ↔ ¬ InStep blockNum p := by
          simp only [InStep, htoggled, hactive, hactive', true_implies, ne_eq, not_not]
          cases numberBit blockNum <;> cases p.number <;> decide
        exact (hmoved.trans (not_congr h)).trans Nat.even_add_one.symm

theorem reopens_blockNum (session : Session) (blockNum : Byte) (program : Relay Frame) :
    reopens { session with blockNum := blockNum } program = reopens session program := by
  induction program with
  | probeCanUpgradeCid next ih => exact ih session.probeCanUpgradeCid
  | done result => rfl
  | sendApdu apdu respCap timeout next => rfl
  | sendFollowed apdu respCap next => rfl
  | recoverSession next => rfl
  | ccidAbortPending next => rfl

/-- An exchange without GET RESPONSE rounds ends with its call: with the call's block number, and with a
failure if the call failed. -/
theorem cont_single {rounds : Rounds} (hround : rounds.round = .command) (hfollow : rounds.exchange.follow = false)
    (r : Returned) : ∃ received, rounds.cont r = .stop ⟨received, r.blockNum⟩ ∧
      ∀ code, r.received = .err code → received = .err code := by
  obtain ⟨received, blockNum⟩ := r
  unfold Rounds.cont
  rw [hround]
  cases received with
  | err code => exact ⟨_, rfl, fun _ h => h⟩
  | ok resp =>
      by_cases hlen : resp.length < swStatusWordLen
      · refine ⟨.ok resp, ?_, by simp⟩
        rw [ApduCall.onReturned_command_ok, if_pos hlen]
      · refine ⟨_, onReturned_single hfollow (Nat.not_lt.mp hlen) blockNum, by simp⟩

/-- The reader goes on from an action that keeps it in step with the card. -/
theorem agree_act {s : Link} (rounds : Rounds) (hround : rounds.round = .command)
    (hfollow : rounds.exchange.follow = false) {action : Action} {moved : Bool} {committed : Byte} {n : Nat}
    (hkeeps : Call.Keeps s.picc moved committed action) (h : Settled n committed s.picc)
    (next : Received → Relay Frame) :
    Agree (if moved then 0 else n) (s.act (action.within Rounds.cont rounds) next) := by
  cases action with
  | send q w =>
      refine ⟨hround, hfollow, hkeeps.1, ?_⟩
      cases moved with
      | true => exact settled_zero hkeeps.2
      | false =>
          obtain rfl : w.blockNum = committed := hkeeps.2
          exact h
  | stop r =>
      obtain ⟨received, hcont, -⟩ := cont_single hround hfollow r
      rw [Next.within, hcont, hkeeps.2]
      exact ⟨settled_zero hkeeps.1, Or.inl Even.zero⟩

/-- An interrupted call fails with the number the reader had committed, which differs from the card's exactly after an
even number of blocks. -/
theorem settled_interrupted {n : Nat} {s : Link} {heard : Bool} {a : IsoDep.Answer} {picc : Picc} {request : Request}
    {rounds : Rounds} {wait : Wait} {next : Received → Relay Frame} (h : Agree n s)
    (hdoing : s.doing = .waiting request rounds wait next)
    (hreacts : Picc.Reacts rounds.call.session s.picc request.frame a.frame heard picc)
    (hinterrupts : rounds.call.Interrupts wait a) :
    (∃ code, Event.next s (.answered heard a picc) =
        ⟨{ s.session with blockNum := wait.blockNum }, picc, .running (next (.err code))⟩) ∧
      Settled (Event.heardBlocks n s (.answered heard a picc)) wait.blockNum picc := by
  unfold Agree at h
  rw [hdoing] at h
  obtain ⟨hround, hfollow, hwaits, hsettled⟩ := h
  obtain ⟨code, hstop⟩ := Call.onAnswer_interrupted hinterrupts
  obtain ⟨received, hcont, hfailed⟩ := cont_single hround hfollow ⟨.err (some code), wait.blockNum⟩
  unfold Event.next Event.heardBlocks
  dsimp only
  rw [hdoing]
  dsimp only
  rw [if_neg (fun h => h.2 hinterrupts)]
  refine ⟨⟨some code, ?_⟩, settled_answered hwaits.1 hreacts hsettled⟩
  change Link.act { s with picc := picc } ((rounds.call.onAnswer wait a).within Rounds.cont rounds) next = _
  rw [hstop, Next.within, hcont, hfailed _ rfl]
  rfl

/-- **The step lemma.** Every event of the link that does no harm keeps reader and card together. -/
theorem agree_next {n : Nat} {s : Link} (h : Agree n s) {e : Event} (hok : e.Allowed s) (hharmless : Harmless n s e) :
    Agree (e.heardBlocks n s) (e.next s) := by
  cases e with
  | host apdu rspCap =>
      have hidle : s.doing = .idle := hok
      unfold Agree at h
      rw [hidle] at h
      exact ⟨h.1, Or.inl h.2⟩
  | go =>
      obtain ⟨result, hdoing⟩ | ⟨apdu, respCap, timeout, next, hdoing⟩ | ⟨next, hdoing⟩ := hok
      all_goals
        unfold Agree at h
        rw [hdoing] at h
        unfold Event.next Event.heardBlocks
        dsimp only
        rw [hdoing]
      · exact ⟨h.1, h.2.resolve_right Bool.false_ne_true⟩
      · have hstep : InStep s.session.blockNum s.picc := h.1.mpr (h.2.resolve_right Bool.false_ne_true)
        exact agree_act (s := s) (s.exchange apdu respCap timeout).command rfl rfl
          (Call.start_keeps hstep) (settled_zero hstep) next
      · exact h
  | answered heard a picc =>
      obtain ⟨request, rounds, wait, next, hdoing, hreacts⟩ := hok
      by_cases hinterrupts : rounds.call.Interrupts wait a
      · obtain ⟨⟨code, hnext⟩, hsettled⟩ := settled_interrupted h hdoing hreacts hinterrupts
        rw [hnext]
        refine ⟨hsettled, (hharmless request rounds wait next hdoing hinterrupts).imp_right fun hreopens => ?_⟩
        exact (reopens_blockNum _ _ _).trans (hreopens _)
      · unfold Agree at h
        rw [hdoing] at h
        obtain ⟨hround, hfollow, hwaits, hsettled⟩ := h
        unfold Event.next Event.heardBlocks
        dsimp only
        rw [hdoing]
        simp only [hinterrupts, not_false_eq_true, and_true]
        exact agree_act (s := { s with picc := picc }) rounds hround hfollow
          (Call.onAnswer_keeps hwaits hreacts hinterrupts) (settled_answered hwaits.1 hreacts hsettled) next
  | reopened r picc =>
      obtain ⟨next, hdoing, hreselects⟩ := hok
      unfold Agree at h
      rw [hdoing] at h
      unfold Event.next Event.heardBlocks
      dsimp only
      rw [hdoing]
      dsimp only
      cases hopened : s.session.recoverSession r with
      | none =>
          rw [Option.isSome_none]
          by_cases hsame : picc = s.picc
          · obtain rfl := hsame
            rw [if_neg (by simp)]
            refine ⟨h.1, Or.inl ?_⟩
            obtain hhalted | ⟨hactivated, hzero⟩ | ⟨-, heven⟩ := hharmless hopened
            · refine h.1.mp fun hactive => ?_
              rw [hhalted] at hactive
              exact absurd hactive Bool.false_ne_true
            · refine h.1.mp fun _ => ?_
              rw [hactivated, hzero]
              exact Bool.false_ne_true
            · exact heven
          · rw [if_pos (Or.inr hsame)]
            refine ⟨settled_zero ?_, Or.inl (by decide)⟩
            obtain rfl | ⟨rfl, hzero⟩ | ⟨hpicc, -⟩ := hharmless hopened
            · exact fun hactive => absurd hactive Bool.false_ne_true
            · intro _
              rw [hzero]
              exact Bool.false_ne_true
            · exact absurd hpicc hsame
      | some opened =>
          rw [hopened] at hreselects
          obtain rfl : picc = .activated := hreselects
          rw [Option.isSome_some, if_pos (Or.inl rfl)]
          refine ⟨settled_zero fun _ => ?_, Or.inl (by decide)⟩
          change numberBit opened.blockNum ≠ true
          rw [Session.recoverSession_blockNum hopened]
          decide
  | abortAsked pending =>
      obtain ⟨next, hdoing⟩ := hok
      unfold Agree at h
      rw [hdoing] at h
      unfold Event.next Event.heardBlocks
      dsimp only
      rw [hdoing]
      exact ⟨h.1, Or.inl (h.2.resolve_right Bool.false_ne_true)⟩

/-- Reader and card at every moment of a run without harm. -/
theorem agree_run {session : Session} {history : List (Link × Event)} {s : Link}
    (hrun : (link session).Run history s) (hharmless : HarmlessRun history) : Agree (heardBlocks history) s := by
  refine Machine.Run.invariant (P := fun history s => HarmlessRun history → Agree (heardBlocks history) s) ?_ ?_ hrun
    hharmless
  · intro _
    refine ⟨settled_zero fun _ => ?_, by decide⟩
    change numberBit 0 ≠ true
    decide
  · intro history s e ih hok hharmless
    obtain ⟨hbefore, hlast⟩ := hharmless.of_append
    rw [heardBlocks_append]
    exact agree_next (ih hbefore) hok hlast

/-- The condition is exact where a call is interrupted: behind it the numbers differ, or the card is out of the
protocol state, exactly if the card has heard an even number of blocks. -/
theorem interrupted_inStep_iff {session : Session} {history : List (Link × Event)} {s : Link} {heard : Bool}
    {a : IsoDep.Answer} {picc : Picc} (hrun : (link session).Run history s) (hharmless : HarmlessRun history)
    (hok : (Event.answered heard a picc).Allowed s)
    (hinterrupts : ∀ request rounds wait next, s.doing = .waiting request rounds wait next →
      rounds.call.Interrupts wait a) :
    InStep (Event.next s (.answered heard a picc)).session.blockNum picc ↔
      Even (heardBlocks (history ++ [(s, .answered heard a picc)])) := by
  obtain ⟨request, rounds, wait, next, hdoing, hreacts⟩ := hok
  obtain ⟨⟨code, hnext⟩, hsettled⟩ :=
    settled_interrupted (agree_run hrun hharmless) hdoing hreacts (hinterrupts _ _ _ _ hdoing)
  rw [hnext, heardBlocks_append]
  exact hsettled

/-- **Block-number agreement.** In every run whose events do no harm, whenever a command APDU can go out,
the number of its first I-block is new to the card. -/
theorem commands_in_step (session : Session) (history : List (Link × Event)) (s : Link)
    (hrun : (link session).Run history s) (hharmless : HarmlessRun history) (hready : Ready s) :
    InStep s.session.blockNum s.picc := by
  have h := agree_run hrun hharmless
  unfold Agree at h
  rcases hready with hidle | ⟨apdu, respCap, timeout, next, hdoing⟩
  · rw [hidle] at h
    exact h.1.mpr h.2
  · rw [hdoing] at h
    exact h.1.mpr (h.2.resolve_right Bool.false_ne_true)

/-! ### Where the relay re-opens the session -/

/-- A CTAP command whose first call fails is followed by a re-activation. -/
theorem ctapExchange_reopens (apdu : Frame) (rspCap : Nat) (ctapCmd : Byte) :
    ∃ timeout next, ctapExchange apdu rspCap ctapCmd = .sendApdu apdu rspCap timeout next ∧
      ∀ session code, reopens session (next (.err code)) = true := ⟨_, _, rfl, fun _ _ => rfl⟩

/-- So is a SELECT of the FIDO application. -/
theorem relaySelectWithRecovery_reopens (apdu : Frame) (rspCap : Nat) :
    ∃ timeout next, relaySelectWithRecovery apdu rspCap = .sendApdu apdu rspCap timeout next ∧
      ∀ code, ∃ again, next (.err code) = .recoverSession again := ⟨_, _, rfl, fun _ => ⟨_, rfl⟩⟩

/-- Any other command is not: the relay reports the failure and is done. -/
theorem plainExchange_stays (apdu : Frame) (rspCap : Nat) :
    ∃ timeout next, plainExchange apdu rspCap = .sendApdu apdu rspCap timeout next ∧
      ∀ code, next (.err code) = .done (relayFailureResponse rspCap) := ⟨_, _, rfl, fun _ => rfl⟩

/-- A READ BINARY of the host, sent to a card without CID. -/
def readCommand : Frame := [0x00, 0xB0, 0x00, 0x00, 0x02]

def hostAsked : Link := Event.next (link (.plain 256)).init (.host readCommand 2050)

def commandSent : Link := Event.next hostAsked .go

/-- The card that has taken one I-block and asks for more time, and the card that has sent a block of a chain. -/
def waitingCard : Picc := ⟨true, false, false, some .response⟩
def chainingCard : Picc := ⟨true, false, true, none⟩

/-- The same card when its chain is acknowledged and its last block sent. -/
def answeredCard : Picc := ⟨true, true, false, none⟩

def sentHistory : List (Link × Event) := [((link (.plain 256)).init, .host readCommand 2050), (hostAsked, .go)]

theorem commandSent_run : (link (.plain 256)).Run sentHistory commandSent :=
  .step (.step .start rfl) (Or.inr (Or.inl ⟨_, _, _, _, rfl⟩))

/-- The first block of the card's response, which announces more. -/
def chainedBlock : IsoDep.Answer := ⟨[0x12, 0xAA, 0xBB], 5, false⟩

def chainAcknowledged : Link := Event.next commandSent (.answered true chainedBlock chainingCard)

/-- The rest of the response is lost, although the card has heard the acknowledgement. -/
def responseLost : Link := Event.next chainAcknowledged (.answered true silence answeredCard)

def lostHistory : List (Link × Event) :=
  sentHistory ++ [(commandSent, .answered true chainedBlock chainingCard)] ++
    [(chainAcknowledged, .answered true silence answeredCard)] ++ [(responseLost, .go)]

theorem responseLost_run : (link (.plain 256)).Run lostHistory (Event.next responseLost .go) := by
  have hchained : (Event.answered true chainedBlock chainingCard).Allowed commandSent :=
    ⟨_, _, _, _, rfl, _, .iBlock rfl (by decide) (by decide) (.block (by decide) (by decide)),
      ⟨by decide, by decide⟩, Or.inl rfl⟩
  have hlost : (Event.answered true silence answeredCard).Allowed chainAcknowledged := by
    refine ⟨_, _, _, _, rfl, [0x03, 0x90, 0x00], ?_, ⟨by decide, by decide⟩, Or.inr rfl⟩
    exact .chainAck rfl (by decide) (by decide) rfl (.block (by decide) (by decide))
  exact .step (e := Event.go) (.step (e := Event.answered true silence answeredCard)
    (.step (e := Event.answered true chainedBlock chainingCard) commandSent_run hchained) hlost) (Or.inl ⟨_, rfl⟩)

/-- The card has heard two blocks of the call that fails: the next command carries a number that is new to it. -/
theorem commands_in_step_lost : InStep (Event.next responseLost .go).session.blockNum
    (Event.next responseLost .go).picc := by
  refine commands_in_step (.plain 256) lostHistory _ responseLost_run ?_ (Or.inl rfl)
  have hsent : HarmlessRun sentHistory := by
    have hstart : HarmlessRun ([] : List (Link × Event)) := fun before x after h => by simp at h
    exact (hstart.append (e := .host readCommand 2050) trivial).append (e := .go) trivial
  have hchained : Harmless 0 commandSent (.answered true chainedBlock chainingCard) := by
    rintro request rounds wait next hdoing hinterrupts
    cases hdoing
    exact absurd hinterrupts (by decide)
  have hlost : Harmless 1 chainAcknowledged (.answered true silence answeredCard) := by
    rintro request rounds wait next hdoing -
    exact Or.inl (by decide)
  exact ((hsent.append hchained).append hlost).append (e := .go) trivial

/-- The host aborts while the card asks for more time: the next command carries the number of this one. -/
theorem aborted_command_out_of_step :
    ¬ ∀ (session : Session) (history : List (Link × Event)) (s : Link), (link session).Run history s → Ready s →
      InStep s.session.blockNum s.picc := by
  intro h
  have hallowed : (Event.answered true ⟨[0xF2, 0x01], 5, true⟩ waitingCard).Allowed commandSent :=
    ⟨_, _, _, _, rfl, _, .iBlock rfl (by decide) (by decide) (.wtx (by decide) (by decide) (by decide)),
      ⟨by decide, by decide⟩, Or.inl rfl⟩
  have hrun : (link (.plain 256)).Run
      (sentHistory ++ [(commandSent, .answered true ⟨[0xF2, 0x01], 5, true⟩ waitingCard)] ++
        [(Event.next commandSent (.answered true ⟨[0xF2, 0x01], 5, true⟩ waitingCard), .go)])
      (Event.next (Event.next commandSent (.answered true ⟨[0xF2, 0x01], 5, true⟩ waitingCard)) .go) :=
    .step (e := Event.go)
      (.step (e := Event.answered true ⟨[0xF2, 0x01], 5, true⟩ waitingCard) commandSent_run hallowed)
      (Or.inl ⟨_, rfl⟩)
  have hstep := h _ _ _ hrun (Or.inl rfl) rfl
  exact absurd hstep (by decide)

end NeroReader.SecurityKey
