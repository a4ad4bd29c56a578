import NeroReader.IsoDepRounds
import NeroReader.Machine
import NeroReader.SecurityKeyLink

/-!
The host's abort request during an exchange. The request becomes pending at any moment and stays pending to
the end of the exchange; the reader looks at it where the card asks for more time, and in front of its own
SELECTs. A program that heeds the request sends nothing behind a look that finds it. The relay's programs do,
except that a FIDO SELECT of the host is taken up again where the session opens behind the aborted call.
-/

namespace NeroReader.SecurityKey

open Driver IsoDep HostApdu

/-! ### Programs that heed the abort request -/

namespace Relay

variable {α β : Type}

/-- With the request pending the program sends nothing, and ends with such a result. -/
def Quiet (post : α → Prop) : Relay α → Prop
  | .done result => post result
  | .sendApdu _ _ _ _ => False
  | .sendFollowed _ _ _ => False
  | .recoverSession next => ∀ ok, (next ok).Quiet post
  | .ccidAbortPending next => (next true).Quiet post
  | .probeCanUpgradeCid next => ∀ can, (next can).Quiet post

/-- The program is quiet behind every failed call and behind every look that finds the request. -/
def Heeds (post : α → Prop) : Relay α → Prop
  | .done _ => True
  | .sendApdu _ _ _ next => (∀ code, (next (.err code)).Quiet post) ∧ ∀ received, (next received).Heeds post
  -- An exchange of the relay has no GET RESPONSE rounds.
  | .sendFollowed _ _ _ => False
  | .recoverSession next => ∀ ok, (next ok).Heeds post
  | .ccidAbortPending next => (next true).Quiet post ∧ (next false).Heeds post
  | .probeCanUpgradeCid next => ∀ can, (next can).Heeds post

variable {post : α → Prop} {post' : β → Prop}

theorem quiet_bind {program : Relay α} {next : α → Relay β} (hfirst : program.Quiet post)
    (hrest : ∀ result, post result → (next result).Quiet post') : (program >>= next).Quiet post' := by
  change (program.bind next).Quiet post'
  induction program with
  | done result => exact hrest result hfirst
  | sendApdu apdu respCap timeout k ih => exact hfirst.elim
  | sendFollowed apdu respCap k ih => exact hfirst.elim
  | recoverSession k ih => exact fun ok => ih ok (hfirst ok)
  | ccidAbortPending k ih => exact ih true hfirst
  | probeCanUpgradeCid k ih => exact fun can => ih can (hfirst can)

theorem heeds_bind {program : Relay α} {next : α → Relay β} (hfirst : program.Heeds post)
    (hquiet : ∀ result, post result → (next result).Quiet post')
    (hrest : ∀ result, (next result).Heeds post') : (program >>= next).Heeds post' := by
  change (program.bind next).Heeds post'
  induction program with
  | done result => exact hrest result
  | sendApdu apdu respCap timeout k ih =>
      exact ⟨fun code => quiet_bind (hfirst.1 code) hquiet, fun received => ih received (hfirst.2 received)⟩
  | sendFollowed apdu respCap k ih => exact hfirst.elim
  | recoverSession k ih => exact fun ok => ih ok (hfirst ok)
  | ccidAbortPending k ih => exact ⟨quiet_bind hfirst.1 hquiet, ih false hfirst.2⟩
  | probeCanUpgradeCid k ih => exact fun can => ih can (hfirst can)

theorem heeds_pure (result : α) : (pure result : Relay α).Heeds post := trivial

theorem quiet_pure {result : α} (h : post result) : (pure result : Relay α).Quiet post := h

end Relay

open Relay

/-- A failed call brings no bytes. -/
theorem sendApdu_heeds (apdu : Frame) (respCap timeout : Nat) :
    (sendApdu apdu respCap timeout).Heeds (· = []) := ⟨fun _ => rfl, fun _ => trivial⟩

theorem recoverSession_quiet : recoverSession.Quiet fun _ => True := fun _ => trivial
theorem recoverSession_heeds : recoverSession.Heeds fun _ => False := fun _ => trivial
theorem ccidAbortPending_quiet : ccidAbortPending.Quiet (· = true) := rfl
theorem ccidAbortPending_heeds : ccidAbortPending.Heeds (· = true) := ⟨rfl, trivial⟩
theorem probeCanUpgradeCid_quiet : probeCanUpgradeCid.Quiet fun _ => True := fun _ => trivial
theorem probeCanUpgradeCid_heeds : probeCanUpgradeCid.Heeds fun _ => False := fun _ => trivial

/-! ### The relay's programs -/

theorem responseSwOk_nil : responseSwOk [] = false := by decide

/-- A SELECT of the relay looks at the request first. -/
theorem selectAppEx_quiet (variant : Byte × Bool) (rspCap : Nat) :
    (selectAppEx variant rspCap).Quiet (·.ok = false) := by
  refine quiet_bind ccidAbortPending_quiet ?_
  rintro pending rfl
  exact quiet_pure rfl

theorem selectAppEx_heeds (variant : Byte × Bool) (rspCap : Nat) :
    (selectAppEx variant rspCap).Heeds (·.ok = false) := by
  have hempty : (selectAnswered rspCap []).ok = false := responseSwOk_nil
  refine heeds_bind ccidAbortPending_heeds ?_ fun pending => ?_
  · rintro pending rfl
    exact quiet_pure rfl
  split
  · exact heeds_pure _
  refine heeds_bind (sendApdu_heeds _ _ _) ?_ fun resp => ?_
  · rintro resp rfl
    refine quiet_bind probeCanUpgradeCid_quiet fun can _ => ?_
    split
    · refine quiet_bind recoverSession_quiet fun ok _ => ?_
      split
      · refine quiet_bind ccidAbortPending_quiet ?_
        rintro pending rfl
        exact quiet_pure rfl
      · exact quiet_pure hempty
    · exact quiet_pure hempty
  split
  · exact heeds_pure _
  refine heeds_bind probeCanUpgradeCid_heeds (fun _ => False.elim) fun can => ?_
  split
  · refine heeds_bind recoverSession_heeds (fun _ => False.elim) fun ok => ?_
    split
    · refine heeds_bind ccidAbortPending_heeds ?_ fun pending => ?_
      · rintro pending rfl
        exact quiet_pure rfl
      split
      · exact heeds_pure _
      · refine heeds_bind (sendApdu_heeds _ _ _) ?_ fun resp => heeds_pure _
        rintro resp rfl
        exact quiet_pure hempty
    · exact heeds_pure _
  · exact heeds_pure _

theorem selectVariants_quiet (rspCap : Nat) : ∀ (variants : List (Byte × Bool)) (rsp : Frame),
    (selectVariants rspCap variants rsp).Quiet (·.1 = false)
  | [], _ => quiet_pure rfl
  | variant :: variants, rsp => by
      refine quiet_bind (selectAppEx_quiet variant rspCap) fun selected hfailed => ?_
      dsimp only
      rw [if_neg (by simp [hfailed])]
      exact selectVariants_quiet rspCap variants _

theorem selectVariants_heeds (rspCap : Nat) : ∀ (variants : List (Byte × Bool)) (rsp : Frame),
    (selectVariants rspCap variants rsp).Heeds (·.1 = false)
  | [], _ => heeds_pure _
  | variant :: variants, rsp => by
      refine heeds_bind (selectAppEx_heeds variant rspCap) (fun selected hfailed => ?_) fun selected => ?_
      · dsimp only
        rw [if_neg (by simp [hfailed])]
        exact selectVariants_quiet rspCap variants _
      · dsimp only
        split
        · exact heeds_pure _
        · exact selectVariants_heeds rspCap variants _

theorem fallback_quiet (rspCap : Nat) : (relaySelectWithRecovery.fallback rspCap).Quiet fun _ => True :=
  quiet_bind (selectVariants_quiet rspCap _ _) fun _ _ => quiet_pure trivial

theorem fallback_heeds (rspCap : Nat) : (relaySelectWithRecovery.fallback rspCap).Heeds fun _ => True :=
  heeds_bind (selectVariants_heeds rspCap _ _) (fun _ _ => quiet_pure trivial) fun _ => heeds_pure _

/-- A SELECT of the relay in front of a program that goes on where it fails. -/
theorem select_or_quiet (variant : Byte × Bool) (rspCap : Nat) {rest : Relay Bool} (hrest : rest.Quiet (· = false)) :
    (selectAppEx variant rspCap >>= fun selected => if selected.ok then pure true else rest).Quiet (· = false) := by
  refine quiet_bind (selectAppEx_quiet variant rspCap) fun selected hfailed => ?_
  rw [if_neg (by simp [hfailed])]
  exact hrest

theorem select_or_heeds (variant : Byte × Bool) (rspCap : Nat) {rest : Relay Bool} (hquiet : rest.Quiet (· = false))
    (hheeds : rest.Heeds (· = false)) :
    (selectAppEx variant rspCap >>= fun selected => if selected.ok then pure true else rest).Heeds (· = false) := by
  refine heeds_bind (selectAppEx_heeds variant rspCap) (fun selected hfailed => ?_) fun selected => ?_
  · rw [if_neg (by simp [hfailed])]
    exact hquiet
  · split
    · exact heeds_pure _
    · exact hheeds

theorem selectSteps_quiet (rspCap : Nat) : ∀ steps : List ((Byte × Bool) × SelectPrep),
    (selectSteps rspCap steps).Quiet (· = false)
  | [] => quiet_pure rfl
  | (variant, .recover) :: steps => by
      refine quiet_bind recoverSession_quiet fun ok _ => ?_
      split
      · exact select_or_quiet variant rspCap (selectSteps_quiet rspCap steps)
      · exact quiet_pure rfl
  | (variant, .none) :: steps => select_or_quiet variant rspCap (selectSteps_quiet rspCap steps)
  | (variant, .settle) :: steps => select_or_quiet variant rspCap (selectSteps_quiet rspCap steps)

theorem selectSteps_heeds (rspCap : Nat) : ∀ steps : List ((Byte × Bool) × SelectPrep),
    (selectSteps rspCap steps).Heeds (· = false)
  | [] => heeds_pure _
  | (variant, .recover) :: steps => by
      refine heeds_bind recoverSession_heeds (fun _ => False.elim) fun ok => ?_
      split
      · exact select_or_heeds variant rspCap (selectSteps_quiet rspCap steps) (selectSteps_heeds rspCap steps)
      · exact heeds_pure _
  | (variant, .none) :: steps =>
      select_or_heeds variant rspCap (selectSteps_quiet rspCap steps) (selectSteps_heeds rspCap steps)
  | (variant, .settle) :: steps =>
      select_or_heeds variant rspCap (selectSteps_quiet rspCap steps) (selectSteps_heeds rspCap steps)

/-- A CTAP command that was aborted is not sent again: behind the recovery every SELECT finds the request. -/
theorem ctapExchange_heeds (apdu : Frame) (rspCap : Nat) (ctapCmd : Byte) :
    (ctapExchange apdu rspCap ctapCmd).Heeds fun _ => True := by
  have hselect := selectSteps_quiet rspCap webauthnSelectSteps
  refine heeds_bind (sendApdu_heeds _ _ _) ?_ fun total => ?_
  · rintro total rfl
    rw [if_neg (by decide)]
    refine quiet_bind recoverSession_quiet fun ok _ => ?_
    split
    · refine quiet_bind hselect ?_
      rintro selected rfl
      exact quiet_pure trivial
    · exact quiet_pure trivial
  split
  · exact heeds_pure _
  refine heeds_bind recoverSession_heeds (fun _ => False.elim) fun ok => ?_
  split
  · refine heeds_bind (selectSteps_heeds rspCap webauthnSelectSteps) ?_ fun selected => ?_
    · rintro selected rfl
      exact quiet_pure trivial
    split
    · exact heeds_bind (sendApdu_heeds _ _ _) (fun _ _ => quiet_pure trivial) fun _ => heeds_pure _
    · exact heeds_pure _
  · exact heeds_pure _

theorem plainExchange_heeds (apdu : Frame) (rspCap : Nat) : (plainExchange apdu rspCap).Heeds fun _ => True :=
  heeds_bind (sendApdu_heeds _ _ _) (fun _ _ => quiet_pure trivial) fun _ => heeds_pure _

/-- What follows the first call of a FIDO SELECT: behind a failed call the session is opened again, and if that
succeeds the SELECT is sent again. -/
structure Resumes {α : Type} (apdu : Frame) (next : Received → Relay α) : Prop where
  heeds : ∀ received, (next received).Heeds fun _ => True
  reopens : ∀ code, ∃ again, next (.err code) = .recoverSession again ∧ (again false).Quiet (fun _ => True) ∧
    ∃ respCap timeout next', again true = .sendApdu apdu respCap timeout next'

theorem Resumes.bind {α β : Type} {apdu : Frame} {next : Received → Relay α} (h : Resumes apdu next)
    {rest : α → Relay β} (hquiet : ∀ result, (rest result).Quiet fun _ => True)
    (hheeds : ∀ result, (rest result).Heeds fun _ => True) : Resumes apdu fun received => next received >>= rest := by
  refine ⟨fun received => heeds_bind (h.heeds received) (fun result _ => hquiet result) hheeds, fun code => ?_⟩
  obtain ⟨again, hnext, hfailed, respCap, timeout, next', hagain⟩ := h.reopens code
  refine ⟨fun ok => again ok >>= rest, by rw [hnext]; rfl, quiet_bind hfailed fun result _ => hquiet result,
    respCap, timeout, fun received => next' received >>= rest, ?_⟩
  change again true >>= rest = _
  rw [hagain]
  rfl

theorem relaySelectWithRecovery_resumes (apdu : Frame) (rspCap : Nat) : ∃ next,
    relaySelectWithRecovery apdu rspCap = .sendApdu apdu rspCap shortFrameMs next ∧ Resumes apdu next := by
  refine ⟨_, rfl, fun received => ?_, fun code => ⟨_, rfl, fallback_quiet rspCap, _, _, _, rfl⟩⟩
  change (if apduResponseHasStatusWord (bytes received) = true then pure (some (bytes received)) else _ :
    Relay (Option Frame)).Heeds _
  split
  · exact heeds_pure _
  refine heeds_bind recoverSession_heeds (fun _ => False.elim) fun ok => ?_
  split
  · refine heeds_bind (sendApdu_heeds _ _ _) ?_ fun resp => ?_
    · rintro resp rfl
      exact fallback_quiet rspCap
    split
    · exact heeds_pure _
    · exact fallback_heeds rspCap
  · exact fallback_heeds rspCap

/-- **Where the abort is heeded.** Every exchange heeds the request, but for the first call of a FIDO SELECT. -/
theorem apduExchange_heeds (apdu : Frame) (rspCap : Nat) :
    (apduExchange apdu rspCap).Heeds (fun _ => True) ∨
      apduIsSelectFidoAid apdu = true ∧ ∃ respCap timeout next,
        apduExchange apdu rspCap = .sendApdu apdu respCap timeout next ∧ Resumes apdu next := by
  unfold apduExchange
  split
  · exact Or.inl (heeds_pure _)
  split
  · rename_i hselect
    obtain ⟨next, hprogram, hresumes⟩ := relaySelectWithRecovery_resumes apdu rspCap
    rw [hprogram]
    refine Or.inr ⟨hselect, _, _, _, rfl, hresumes.bind ?_ ?_⟩ <;> intro rsp <;> cases rsp
    · exact quiet_pure trivial
    · exact quiet_pure trivial
    · exact heeds_pure _
    · exact heeds_pure _
  refine Or.inl ?_
  split
  · exact ctapExchange_heeds apdu rspCap _
  · exact plainExchange_heeds apdu rspCap

/-! ### The exchange -/

/-- One command of the host under way: the session, whether the host's abort request is pending, and what the
reader is doing. The card is not in the state: it answers with any frame. -/
structure HostExchange where
  session : Session
  pending : Bool
  doing : Doing

/-- One event of an exchange: the host's request, a step the program takes by itself, a frame from the card
or silence with the clock the reader finds, a re-activation. -/
inductive HostExchange.Event where
  | hostAborts
  | go
  | answered (frame : Frame) (elapsedMs : Nat)
  | reopened (reopening : Reopening)

namespace HostExchange

/-- The reader goes on from an action of the call in progress. -/
def act (s : HostExchange) (action : ApduAction) (next : Received → Relay Frame) : HostExchange :=
  match action with
  | .send request (rounds, wait) => { s with doing := .waiting request rounds wait next }
  | .stop r => { s with session := { s.session with blockNum := r.blockNum }, doing := .running (next r.received) }

/-- The order of the reader's own steps; the host's request stays pending. -/
def Event.Allowed (s : HostExchange) : Event → Prop
  | .hostAborts => s.pending = false
  | .go =>
      (∃ apdu respCap timeout next, s.doing = .running (.sendApdu apdu respCap timeout next)) ∨
      (∃ next, s.doing = .running (.ccidAbortPending next)) ∨
      (∃ next, s.doing = .running (.probeCanUpgradeCid next))
  | .answered _ _ => ∃ request rounds wait next, s.doing = .waiting request rounds wait next
  | .reopened _ => ∃ next, s.doing = .running (.recoverSession next)

def Event.next (s : HostExchange) : Event → HostExchange
  | .hostAborts => { s with pending := true }
  | .go =>
      match s.doing with
      | .running (.sendApdu apdu respCap timeout next) =>
          s.act (Link.begin ⟨s.session, apdu, respCap, timeout, false⟩) next
      | .running (.ccidAbortPending next) => { s with doing := .running (next s.pending) }
      | .running (.probeCanUpgradeCid next) => { s with doing := .running (next s.session.probeCanUpgradeCid) }
      | _ => s
  | .answered frame elapsedMs =>
      match s.doing with
      | .waiting _ rounds wait next =>
          s.act (nested Rounds.step Rounds.cont (rounds, wait) ⟨frame, elapsedMs, s.pending⟩) next
      | _ => s
  | .reopened r =>
      match s.doing with
      | .running (.recoverSession next) =>
          match s.session.recoverSession r with
          | none => { s with doing := .running (next false) }
          | some opened => { s with session := opened, doing := .running (next true) }
      | _ => s

/-- `reader_security_key_apdu_exchange` for one command of the host. -/
def machine (session : Session) (pending : Bool) (apdu : Frame) (rspCap : Nat) : Machine HostExchange Event where
  init := ⟨session, pending, .running (apduExchange apdu rspCap)⟩
  allowed := Event.Allowed
  next := Event.next

/-- The step looks at the abort request and finds it: at an S(WTX) of the card that is in time, or in front of
a SELECT of the relay. -/
def Observes (s : HostExchange) : Event → Prop
  | .answered frame elapsedMs =>
      s.pending = true ∧ isSWtx frame = true ∧
        ∃ request rounds wait next, s.doing = .waiting request rounds wait next ∧
          elapsedMs ≤ rounds.call.frameTimeoutMs
  | .go => s.pending = true ∧ ∃ next, s.doing = .running (.ccidAbortPending next)
  | _ => False

/-- The step puts an I-block with this APDU, or a fragment of it, on the air. -/
def Carries (apdu : Frame) (s : HostExchange) : Event → Prop
  | .hostAborts => False
  | e => ∃ request rounds w next, (e.next s).doing = .waiting request rounds (.tx w) next ∧
      rounds.exchange.apdu = apdu ∧ request.frame = w.block.wire

/-- Behind the step that observes the abort nothing of the command goes out. -/
def Stopped (apdu : Frame) (history : List (HostExchange × Event)) : Prop :=
  history.Pairwise fun x y => Observes x.1 x.2 → ¬ Carries apdu y.1 y.2

def Event.IsReopening : Event → Prop
  | .reopened _ => True
  | _ => False

/-- The host aborts the first call of a FIDO SELECT, and the session is opened again behind it. -/
def TakenUpAgain (apdu : Frame) (history : List (HostExchange × Event)) : Prop :=
  apduIsSelectFidoAid apdu = true ∧ ∃ before x s r after, history = before ++ x :: (s, .reopened r) :: after ∧
    (∀ y ∈ before, ¬ y.2.IsReopening) ∧ Observes x.1 x.2 ∧ (s.session.recoverSession r).isSome = true

/-! ### The phases of an exchange -/

def Single (rounds : Rounds) : Prop := rounds.round = .command ∧ rounds.exchange.follow = false

/-- The reader goes on from an action of an exchange without GET RESPONSE rounds. -/
theorem act_within (s : HostExchange) {rounds : Rounds} (hsingle : Single rounds) (action : Action)
    (next : Received → Relay Frame) :
    (∃ q w, s.act (action.within Rounds.cont rounds) next = { s with doing := .waiting q rounds w next }) ∨
      ∃ session received,
        s.act (action.within Rounds.cont rounds) next =
          { s with session := session, doing := .running (next received) } := by
  cases action with
  | send q w => exact Or.inl ⟨q, w, rfl⟩
  | stop r =>
      obtain ⟨received, hcont, -⟩ := cont_single hsingle.1 hsingle.2 r
      rw [Next.within, hcont]
      exact Or.inr ⟨_, received, rfl⟩

theorem act_failed (s : HostExchange) {rounds : Rounds} (hsingle : Single rounds) (code : Option Err) (blockNum : Byte)
    (next : Received → Relay Frame) :
    ∃ session, s.act (Next.within Rounds.cont rounds (.stop ⟨.err code, blockNum⟩)) next =
      { s with session := session, doing := .running (next (.err code)) } := by
  rw [Next.within, Rounds.cont, hsingle.1, ApduCall.onReturned_command_err]
  exact ⟨_, rfl⟩

/-- The request is pending and nothing goes out any more. -/
def Silent (s : HostExchange) : Prop :=
  s.pending = true ∧ match s.doing with
    | .idle => True
    | .running program => program.Quiet fun _ => True
    | .waiting _ _ _ _ => False

/-- The program under way heeds the request. -/
def Heeding (s : HostExchange) : Prop :=
  match s.doing with
  | .idle => True
  | .running program => program.Heeds fun _ => True
  | .waiting _ rounds _ next =>
      Single rounds ∧ (∀ code, (next (.err code)).Quiet fun _ => True) ∧
        ∀ received, (next received).Heeds fun _ => True

/-- A FIDO SELECT in its first call. -/
def Opening (apdu : Frame) (s : HostExchange) : Prop :=
  (∃ respCap timeout next, s.doing = .running (.sendApdu apdu respCap timeout next) ∧ Resumes apdu next) ∨
    ∃ request rounds wait next, s.doing = .waiting request rounds wait next ∧ Single rounds ∧ Resumes apdu next

/-- A quiet program goes on quietly, and what it does carries nothing. -/
theorem silent_next {s : HostExchange} (h : Silent s) {e : Event} (hok : e.Allowed s) :
    Silent (e.next s) ∧ ∀ apdu, ¬ Carries apdu s e := by
  have hsilent : Silent (e.next s) := by
    obtain ⟨hpending, hdoing⟩ := h
    cases e with
    | hostAborts => exact absurd hok (by simp [Event.Allowed, hpending])
    | go =>
        obtain ⟨apdu, respCap, timeout, next, hrunning⟩ | ⟨next, hrunning⟩ | ⟨next, hrunning⟩ := hok
        · rw [hrunning] at hdoing
          exact hdoing.elim
        · rw [hrunning] at hdoing
          simp only [Silent, Event.next, hrunning, hpending]
          exact ⟨trivial, hdoing⟩
        · rw [hrunning] at hdoing
          simp only [Silent, Event.next, hrunning]
          exact ⟨hpending, hdoing _⟩
    | answered frame elapsedMs =>
        obtain ⟨request, rounds, wait, next, hwaiting⟩ := hok
        rw [hwaiting] at hdoing
        exact hdoing.elim
    | reopened r =>
        obtain ⟨next, hrunning⟩ := hok
        rw [hrunning] at hdoing
        simp only [Silent, Event.next, hrunning]
        cases s.session.recoverSession r with
        | none => exact ⟨hpending, hdoing false⟩
        | some opened => exact ⟨hpending, hdoing true⟩
  refine ⟨hsilent, fun apdu hcarries => ?_⟩
  have hquiet := hsilent.2
  cases e with
  | hostAborts => exact hcarries
  | _ =>
      obtain ⟨request, rounds, w, next, hwaiting, -⟩ := hcarries
      rw [hwaiting] at hquiet
      exact hquiet

/-- An answer that does not end the call leaves it waiting. -/
theorem answered_next {s : HostExchange} {request : Request} {rounds : Rounds} {wait : Wait}
    {next : Received → Relay Frame} (hdoing : s.doing = .waiting request rounds wait next) (hsingle : Single rounds)
    (frame : Frame) (elapsedMs : Nat) :
    (∃ q w, (Event.answered frame elapsedMs).next s = { s with doing := .waiting q rounds w next }) ∨
      ∃ session received,
        (Event.answered frame elapsedMs).next s = { s with session := session, doing := .running (next received) } := by
  simp only [Event.next, hdoing]
  exact act_within s hsingle (rounds.call.onAnswer wait ⟨frame, elapsedMs, s.pending⟩) next

/-- The answer at which the reader finds the request ends the call with a failure. -/
theorem observed_next {s : HostExchange} {request : Request} {rounds : Rounds} {wait : Wait}
    {next : Received → Relay Frame} (hdoing : s.doing = .waiting request rounds wait next) (hsingle : Single rounds)
    {frame : Frame} {elapsedMs : Nat} (hobserves : Observes s (.answered frame elapsedMs)) :
    ∃ session code,
      (Event.answered frame elapsedMs).next s =
      { s with session := session, doing := .running (next (.err code)) } := by
  obtain ⟨hpending, hwtx, -⟩ := hobserves
  obtain ⟨code, hstop⟩ := Call.onAnswer_interrupted (c := rounds.call) (w := wait) (a := ⟨frame, elapsedMs, s.pending⟩)
    (Or.inr (Or.inl ⟨hwtx, Or.inr hpending⟩))
  obtain ⟨session, hact⟩ := act_failed s hsingle (some code) wait.blockNum next
  refine ⟨session, some code, ?_⟩
  simp only [Event.next, hdoing]
  change s.act ((rounds.call.onAnswer wait ⟨frame, elapsedMs, s.pending⟩).within Rounds.cont rounds) next = _
  rw [hstop, hact]

/-- A call that begins waits for its first answer, or ends at once. -/
theorem go_next {s : HostExchange} {apdu : Frame} {respCap timeout : Nat} {next : Received → Relay Frame}
    (hdoing : s.doing = .running (.sendApdu apdu respCap timeout next)) :
    (∃ q rounds w, Event.go.next s = { s with doing := .waiting q rounds w next } ∧ Single rounds) ∨
      ∃ session received, Event.go.next s = { s with session := session, doing := .running (next received) } := by
  simp only [Event.next, hdoing]
  have hsingle : Single (ApduCall.command ⟨s.session, apdu, respCap, timeout, false⟩) := ⟨rfl, rfl⟩
  obtain ⟨q, w, hnext⟩ | h := act_within s hsingle
    (ApduCall.command ⟨s.session, apdu, respCap, timeout, false⟩).call.start next
  · exact Or.inl ⟨q, _, w, hnext, hsingle⟩
  · exact Or.inr h

/-- **The step lemma.** Where a step of a program that heeds the request observes it, nothing more goes out. -/
theorem heeding_observes {s : HostExchange} (h : Heeding s) {e : Event} (hobserves : Observes s e) :
    Silent (e.next s) := by
  unfold Heeding at h
  cases e with
  | hostAborts => exact hobserves.elim
  | reopened r => exact hobserves.elim
  | go =>
      obtain ⟨hpending, next, hdoing⟩ := hobserves
      rw [hdoing] at h
      simp only [Silent, Event.next, hdoing, hpending]
      exact ⟨trivial, h.1⟩
  | answered frame elapsedMs =>
      obtain ⟨hpending, -, request, rounds, wait, next, hdoing, -⟩ := id hobserves
      rw [hdoing] at h
      obtain ⟨hsingle, hquiet, -⟩ := h
      obtain ⟨session, code, hnext⟩ := observed_next hdoing hsingle hobserves
      rw [hnext]
      exact ⟨hpending, hquiet code⟩

/-- Otherwise it goes on heeding it. -/
theorem heeding_next {s : HostExchange} (h : Heeding s) {e : Event} (hok : e.Allowed s) (hno : ¬ Observes s e) :
    Heeding (e.next s) := by
  unfold Heeding at h
  cases e with
  | hostAborts => exact h
  | go =>
      obtain ⟨apdu, respCap, timeout, next, hdoing⟩ | ⟨next, hdoing⟩ | ⟨next, hdoing⟩ := hok
      · rw [hdoing] at h
        obtain ⟨q, rounds, w, hnext, hsingle⟩ | ⟨session, received, hnext⟩ := go_next hdoing
        · rw [hnext]
          exact ⟨hsingle, h⟩
        · rw [hnext]
          exact h.2 received
      · rw [hdoing] at h
        have hpending : s.pending = false := by
          by_contra hpending
          exact hno ⟨by simpa using hpending, next, hdoing⟩
        simp only [Heeding, Event.next, hdoing, hpending]
        exact h.2
      · rw [hdoing] at h
        simp only [Heeding, Event.next, hdoing]
        exact h _
  | answered frame elapsedMs =>
      obtain ⟨request, rounds, wait, next, hdoing⟩ := hok
      rw [hdoing] at h
      obtain ⟨hsingle, hquiet, hheeds⟩ := h
      obtain ⟨q, w, hnext⟩ | ⟨session, received, hnext⟩ := answered_next hdoing hsingle frame elapsedMs
      · rw [hnext]
        exact ⟨hsingle, hquiet, hheeds⟩
      · rw [hnext]
        exact hheeds received
  | reopened r =>
      obtain ⟨next, hdoing⟩ := hok
      rw [hdoing] at h
      simp only [Heeding, Event.next, hdoing]
      cases s.session.recoverSession r with
      | none => exact h false
      | some opened => exact h true

/-- A FIDO SELECT in its first call does not re-open the session. -/
theorem opening_stays {apdu : Frame} {s : HostExchange} (h : Opening apdu s) {e : Event} (hok : e.Allowed s) :
    ¬ e.IsReopening := by
  intro hreopening
  cases e with
  | reopened r =>
      obtain ⟨next, hdoing⟩ := hok
      obtain ⟨respCap, timeout, next', hdoing', -⟩ | ⟨request, rounds, wait, next', hdoing', -⟩ := h <;>
        simp [hdoing] at hdoing'
  | _ => exact hreopening

/-- Where the request is observed in the first call, the session is opened again. -/
theorem opening_observes {apdu : Frame} {s : HostExchange} (h : Opening apdu s) {e : Event}
    (hobserves : Observes s e) :
    ∃ again, (e.next s).pending = true ∧ (e.next s).doing = .running (.recoverSession again) ∧
      (again false).Quiet (fun _ => True) ∧
        ∃ respCap timeout next, again true = .sendApdu apdu respCap timeout next := by
  cases e with
  | hostAborts => exact hobserves.elim
  | reopened r => exact hobserves.elim
  | go =>
      obtain ⟨-, next, hdoing⟩ := hobserves
      obtain ⟨respCap, timeout, next', hdoing', -⟩ | ⟨request, rounds, wait, next', hdoing', -⟩ := h <;>
        simp [hdoing] at hdoing'
  | answered frame elapsedMs =>
      obtain ⟨hpending, -, request, rounds, wait, next, hdoing, -⟩ := id hobserves
      obtain ⟨respCap, timeout, next', hdoing', -⟩ | ⟨request', rounds', wait', next', hdoing', hsingle, hresumes⟩ := h
      · simp [hdoing] at hdoing'
      obtain ⟨session, code, hnext⟩ := observed_next hdoing' hsingle hobserves
      obtain ⟨again, hagain, hfailed, hresent⟩ := hresumes.reopens code
      rw [hnext]
      exact ⟨again, hpending, congrArg Doing.running hagain, hfailed, hresent⟩

theorem opening_next {apdu : Frame} {s : HostExchange} (h : Opening apdu s) {e : Event} (hok : e.Allowed s) :
    Opening apdu (e.next s) ∨ Heeding (e.next s) := by
  obtain ⟨respCap, timeout, next, hdoing, hresumes⟩ | ⟨request, rounds, wait, next, hdoing, hsingle, hresumes⟩ := h
  · cases e with
    | hostAborts => exact Or.inl (Or.inl ⟨respCap, timeout, next, hdoing, hresumes⟩)
    | go =>
        obtain ⟨q, rounds, w, hnext, hsingle⟩ | ⟨session, received, hnext⟩ := go_next hdoing
        · rw [hnext]
          exact Or.inl (Or.inr ⟨q, rounds, w, next, rfl, hsingle, hresumes⟩)
        · rw [hnext]
          exact Or.inr (hresumes.heeds received)
    | answered frame elapsedMs =>
        obtain ⟨request, rounds, wait, next', hdoing'⟩ := hok
        simp [hdoing] at hdoing'
    | reopened r =>
        obtain ⟨next', hdoing'⟩ := hok
        simp [hdoing] at hdoing'
  · cases e with
    | hostAborts => exact Or.inl (Or.inr ⟨request, rounds, wait, next, hdoing, hsingle, hresumes⟩)
    | go =>
        obtain ⟨apdu', respCap, timeout, next', hdoing'⟩ | ⟨next', hdoing'⟩ | ⟨next', hdoing'⟩ := hok <;>
          simp [hdoing] at hdoing'
    | answered frame elapsedMs =>
        obtain ⟨q, w, hnext⟩ | ⟨session, received, hnext⟩ := answered_next hdoing hsingle frame elapsedMs
        · rw [hnext]
          exact Or.inl (Or.inr ⟨q, rounds, w, next, rfl, hsingle, hresumes⟩)
        · rw [hnext]
          exact Or.inr (hresumes.heeds received)
    | reopened r =>
        obtain ⟨next', hdoing'⟩ := hok
        simp [hdoing] at hdoing'

/-! ### Runs -/

/-- The first call of a FIDO SELECT was aborted, and the session is about to be opened again. -/
def Aborted (apdu : Frame) (history : List (HostExchange × Event)) (s : HostExchange) : Prop :=
  apduIsSelectFidoAid apdu = true ∧ s.pending = true ∧
    (∃ before x, history = before ++ [x] ∧ (∀ y ∈ before, ¬ y.2.IsReopening) ∧ Observes x.1 x.2) ∧
    ∃ again, s.doing = .running (.recoverSession again) ∧ (again false).Quiet (fun _ => True) ∧
      ∃ respCap timeout next, again true = .sendApdu apdu respCap timeout next

/-- How far a run has come. -/
inductive Phase (apdu : Frame) (history : List (HostExchange × Event)) (s : HostExchange) : Prop where
  | opening (unseen : ∀ x ∈ history, ¬ Observes x.1 x.2) (select : apduIsSelectFidoAid apdu = true)
      (first : ∀ x ∈ history, ¬ x.2.IsReopening) (doing : Opening apdu s)
  | heeding (unseen : ∀ x ∈ history, ¬ Observes x.1 x.2) (doing : Heeding s)
  | aborted (doing : Aborted apdu history s)
  | silent (doing : Silent s)

theorem TakenUpAgain.append {apdu : Frame} {history : List (HostExchange × Event)} (h : TakenUpAgain apdu history)
    (later : List (HostExchange × Event)) : TakenUpAgain apdu (history ++ later) := by
  obtain ⟨hselect, before, x, s, r, after, rfl, hrest⟩ := h
  exact ⟨hselect, before, x, s, r, after ++ later, by simp, hrest⟩

theorem stopped_snoc {apdu : Frame} {history : List (HostExchange × Event)} {s : HostExchange} {e : Event}
    (h : Stopped apdu history) (hlast : (∃ x ∈ history, Observes x.1 x.2) → ¬ Carries apdu s e) :
    Stopped apdu (history ++ [(s, e)]) := by
  refine List.pairwise_append.mpr ⟨h, List.pairwise_singleton _ _, fun x hx y hy hobserves => ?_⟩
  obtain rfl := List.mem_singleton.mp hy
  exact hlast ⟨x, hx, hobserves⟩

theorem unseen_snoc {history : List (HostExchange × Event)} {s : HostExchange} {e : Event}
    (h : ∀ x ∈ history, ¬ Observes x.1 x.2) (hno : ¬ Observes s e) :
    ∀ x ∈ history ++ [(s, e)], ¬ Observes x.1 x.2 := by
  intro x hx
  rcases List.mem_append.mp hx with hx | hx
  · exact h x hx
  · obtain rfl := List.mem_singleton.mp hx
    exact hno

/-- Behind an aborted FIDO SELECT comes the re-opening; where it fails, nothing more goes out. -/
theorem aborted_next {apdu : Frame} {history : List (HostExchange × Event)} {s : HostExchange}
    (h : Aborted apdu history s) {e : Event} (hok : e.Allowed s) (hno : ¬ TakenUpAgain apdu (history ++ [(s, e)])) :
    Silent (e.next s) ∧ ¬ Carries apdu s e := by
  obtain ⟨hselect, hpending, ⟨before, x, rfl, hfirst, hobserves⟩, again, hdoing, hquiet, -⟩ := h
  cases e with
  | hostAborts => exact absurd hok (by simp [Event.Allowed, hpending])
  | go =>
      obtain ⟨apdu', respCap, timeout, next', hdoing'⟩ | ⟨next', hdoing'⟩ | ⟨next', hdoing'⟩ := hok <;>
        simp [hdoing] at hdoing'
  | answered frame elapsedMs =>
      obtain ⟨request, rounds, wait, next', hdoing'⟩ := hok
      simp [hdoing] at hdoing'
  | reopened r =>
      have hfailed : s.session.recoverSession r = none := by
        by_contra hopened
        exact hno ⟨hselect, before, x, s, r, [], by simp, hfirst, hobserves, Option.isSome_iff_ne_none.mpr hopened⟩
      have hnext : (Event.reopened r).next s = { s with doing := .running (again false) } := by
        simp only [Event.next, hdoing, hfailed]
      refine ⟨by rw [hnext]; exact ⟨hpending, hquiet⟩, ?_⟩
      rintro ⟨request, rounds, w, next, hwaiting, -⟩
      rw [hnext] at hwaiting
      cases hwaiting

/-- How far a run has come in which no aborted FIDO SELECT is taken up again, and what it has sent. -/
theorem run_phase {session : Session} {pending : Bool} {apdu : Frame} {rspCap : Nat}
    {history : List (HostExchange × Event)} {s : HostExchange}
    (hrun : (machine session pending apdu rspCap).Run history s) :
    ¬ TakenUpAgain apdu history → Phase apdu history s ∧ Stopped apdu history := by
  refine Machine.Run.invariant (P := fun history s =>
    ¬ TakenUpAgain apdu history → Phase apdu history s ∧ Stopped apdu history) ?_ ?_ hrun
  · intro _
    refine ⟨?_, List.Pairwise.nil⟩
    rcases apduExchange_heeds apdu rspCap with hheeds | ⟨hselect, respCap, timeout, next, hprogram, hresumes⟩
    · exact .heeding (by simp) hheeds
    · exact .opening (by simp) hselect (by simp)
        (Or.inl ⟨respCap, timeout, next, congrArg Doing.running hprogram, hresumes⟩)
  intro history s e ih hok hno
  obtain ⟨hphase, hstopped⟩ := ih fun h => hno (h.append _)
  cases hphase with
  | opening hunseen hselect hfirst hdoing =>
      refine ⟨?_, stopped_snoc hstopped fun ⟨x, hx, hobserves⟩ => absurd hobserves (hunseen x hx)⟩
      by_cases hobserves : Observes s e
      · obtain ⟨again, hpending, hagain, hrest⟩ := opening_observes hdoing hobserves
        exact .aborted ⟨hselect, hpending, ⟨history, (s, e), rfl, hfirst, hobserves⟩, again, hagain, hrest⟩
      · rcases opening_next hdoing hok with hopening | hheeding
        · refine .opening (unseen_snoc hunseen hobserves) hselect (fun x hx => ?_) hopening
          rcases List.mem_append.mp hx with hx | hx
          · exact hfirst x hx
          · obtain rfl := List.mem_singleton.mp hx
            exact opening_stays hdoing hok
        · exact .heeding (unseen_snoc hunseen hobserves) hheeding
  | heeding hunseen hdoing =>
      refine ⟨?_, stopped_snoc hstopped fun ⟨x, hx, hobserves⟩ => absurd hobserves (hunseen x hx)⟩
      by_cases hobserves : Observes s e
      · exact .silent (heeding_observes hdoing hobserves)
      · exact .heeding (unseen_snoc hunseen hobserves) (heeding_next hdoing hok hobserves)
  | aborted hdoing =>
      obtain ⟨hsilent, hcarries⟩ := aborted_next hdoing hok hno
      exact ⟨.silent hsilent, stopped_snoc hstopped fun _ => hcarries⟩
  | silent hdoing =>
      obtain ⟨hsilent, hcarries⟩ := silent_next hdoing hok
      exact ⟨.silent hsilent, stopped_snoc hstopped fun _ => hcarries apdu⟩

/-- **Host abort.** In every run of an exchange in which no aborted FIDO SELECT is taken up again, nothing of
the command goes out behind the step that observes the abort. -/
theorem abort_stops_command (session : Session) (pending : Bool) (apdu : Frame) (rspCap : Nat)
    (history : List (HostExchange × Event)) (s : HostExchange)
    (hrun : (machine session pending apdu rspCap).Run history s) (hno : ¬ TakenUpAgain apdu history) :
    Stopped apdu history :=
  (run_phase hrun hno).2

theorem apduChunkBudget_ne_zero {picFrameMax hdrLen : Nat} (hroom : 16 ≤ picFrameMax) (hhdr : hdrLen ≤ 3) :
    apduChunkBudget picFrameMax hdrLen ≠ 0 := by
  unfold apduChunkBudget
  rw [if_neg (by omega)]
  omega

/-- **Where it is not.** Behind an aborted FIDO SELECT whose session opens again the next step sends the SELECT
once more. -/
theorem aborted_sent_again {apdu : Frame} {history : List (HostExchange × Event)} {s : HostExchange}
    (h : Aborted apdu history s) {r : Reopening} {opened : Session} (hopened : s.session.recoverSession r = some opened)
    (hroom : 16 ≤ opened.picFrameMax) : Carries apdu ((Event.reopened r).next s) .go := by
  obtain ⟨hselect, -, -, again, hdoing, -, respCap, timeout, next, hagain⟩ := h
  have hne : 0 < apdu.length := by
    cases apdu with
    | nil => exact absurd hselect (by decide)
    | cons b bs => simp
  have hnext : (Event.reopened r).next s =
      { s with session := opened, doing := .running (.sendApdu apdu respCap timeout next) } := by
    simp only [Event.next, hdoing, hopened, hagain]
  have hcap : (ApduCall.command ⟨opened, apdu, respCap, timeout, false⟩).call.fragCap ≠ 0 :=
    apduChunkBudget_ne_zero hroom (iBlockTxHdrLen_bounds _ _).2.1
  obtain ⟨q, w, hstart, hwire⟩ := Call.start_sends hcap hne
  have hsent : (Event.go.next ((Event.reopened r).next s)).doing =
      .waiting q (ApduCall.command ⟨opened, apdu, respCap, timeout, false⟩) (.tx w) next := by
    rw [hnext]
    simp only [Event.next, act, Link.begin]
    rw [hstart]
    rfl
  exact ⟨_, _, _, next, hsent, rfl, hwire⟩

/-- A FIDO SELECT of the host, sent to a card that asks for more time. -/
def fidoSelect : Frame := buildSelectFidoApdu (0x00, true)

def askForTime : Event := .answered [0xF2, 0x01] 5

/-- The card is selected again and answers the RATS with an ATS. -/
def openAgain : Event := .reopened ⟨true, [0x05, 0x78, 0x80, 0x70, 0x02], [], []⟩

def selectMachine : Machine HostExchange Event := machine (.plain 256) false fidoSelect 258

def selectSent : HostExchange := Event.go.next selectMachine.init

def selectAborting : HostExchange := Event.hostAborts.next selectSent

def selectFailed : HostExchange := askForTime.next selectAborting

def selectReopened : HostExchange := openAgain.next selectFailed

def sentHistory : List (HostExchange × Event) := [(selectMachine.init, .go), (selectSent, .hostAborts)]

theorem selectAborting_run : selectMachine.Run sentHistory selectAborting :=
  .step (e := Event.hostAborts) (.step (e := Event.go) .start (Or.inl ⟨_, _, _, _, rfl⟩)) rfl

theorem selectAborting_observes : Observes selectAborting askForTime :=
  ⟨rfl, by decide, _, _, _, _, rfl, by decide⟩

theorem selectReopened_run : selectMachine.Run
    (sentHistory ++ [(selectAborting, askForTime)] ++ [(selectFailed, openAgain)] ++ [(selectReopened, .go)])
    (Event.go.next selectReopened) :=
  .step (e := Event.go) (.step (e := openAgain) (.step (e := askForTime) selectAborting_run ⟨_, _, _, _, rfl⟩) ⟨_, rfl⟩)
    (Or.inl ⟨_, _, _, _, rfl⟩)

/-- The aborted SELECT goes out again. -/
theorem aborted_select_sent_again : ¬ ∀ (session : Session) (pending : Bool) (apdu : Frame) (rspCap : Nat)
    (history : List (HostExchange × Event)) (s : HostExchange),
    (machine session pending apdu rspCap).Run history s → Stopped apdu history := by
  intro h
  have hstopped := h (.plain 256) false fidoSelect 258 _ _ selectReopened_run
  have hcarries : Carries fidoSelect selectReopened .go := ⟨_, _, _, _, rfl, rfl, rfl⟩
  exact (List.pairwise_append.mp hstopped).2.2 (selectAborting, askForTime) (by simp) (selectReopened, .go) (by simp)
    selectAborting_observes hcarries

/-- authenticatorGetInfo, aborted in the same way: behind the recovery the SELECT finds the request. -/
def getInfo : Frame := [0x80, 0x10, 0x00, 0x00, 0x01, 0x04, 0x00]

theorem abort_stops_command_getInfo : ∃ history s,
    (machine (.plain 256) false getInfo 258).Run history s ∧ (∃ x ∈ history, Observes x.1 x.2) ∧
      Stopped getInfo history := by
  have hsent : (machine (.plain 256) false getInfo 258).Run _ _ :=
    .step (e := Event.hostAborts) (.step (e := Event.go) .start (Or.inl ⟨_, _, _, _, rfl⟩)) rfl
  have hrun : (machine (.plain 256) false getInfo 258).Run _ _ :=
    .step (e := Event.go) (.step (e := openAgain) (.step (e := askForTime) hsent ⟨_, _, _, _, rfl⟩) ⟨_, rfl⟩)
      (Or.inr (Or.inl ⟨_, rfl⟩))
  refine ⟨_, _, hrun, ⟨_, List.mem_append_left _ (List.mem_append_left _ (List.mem_append_right _
    (List.mem_singleton_self _))), rfl, by decide, _, _, _, _, rfl, by decide⟩, ?_⟩
  exact abort_stops_command (.plain 256) false getInfo 258 _ _ hrun fun h => absurd h.1 (by decide)

end HostExchange

end NeroReader.SecurityKey
