import NeroReader.CcidAnswers
import NeroReader.Machine

/-!
The CCID reader over whole runs: tag events, polls, bulk commands and abort requests of the control
endpoint in any order, started from reset. The application reports a tag only when no session is open;
nothing is assumed about which tag it is, so a run may also replace one tag by another without a removal
in between.
-/

namespace NeroReader.Ccid

open IsoDep
open Storage (TagKind)

inductive Event where
  | tagDetected (kind : TagKind)
  | tagRemoved (now : BitVec 32)
  | poll (env : BulkEnv) (packet : Option Frame)
  | bulk (env : BulkEnv) (frame : Frame)
  | abortRequest (seq : Byte)

namespace Event

def turn (r : Reader) : Event → Turn
  | .tagDetected kind => r.onTagDetected kind
  | .tagRemoved now => r.onTagRemovedFromField now
  | .poll env packet => r.poll env packet
  | .bulk env frame => r.handleBulk env frame
  | .abortRequest seq => .silent (r.abortRequested seq)

/-- What the application promises: a detected tag has a kind, and no session is open. -/
def Allowed (r : Reader) : Event → Prop
  | .tagDetected kind => kind ≠ .none ∧ r.sess = false
  | _ => True

end Event

/-- The reader as a machine over its events. -/
def lifecycle : Machine Reader Event where
  init := .reset
  allowed := Event.Allowed
  next := fun r e => (e.turn r).reader

/-- The slot-change notifications of a history. -/
def notifications (history : List (Reader × Event)) : List Bool :=
  Machine.output (fun r e => (e.turn r).notified) history

namespace Reader

open Machine (Alternates)

variable {r : Reader}

/-! ### One event -/

/-- A turn keeps the invariant, and its notifications lead from the slot state before to the one after. -/
structure Keeps (r : Reader) (t : Turn) : Prop where
  consistent : t.reader.Consistent
  announced : Alternates r.cardPresent t.notified t.reader.cardPresent

theorem keeps_same {t : Turn} (hc : t.reader.Consistent) (hcard : t.reader.cardPresent = r.cardPresent)
    (hquiet : t.notified = []) : r.Keeps t :=
  ⟨hc, by rw [hcard, hquiet]; exact .nil _⟩

theorem Keeps.andThen {t : Turn} {next : Reader → Turn} (ht : r.Keeps t) (hn : t.reader.Keeps (next t.reader)) :
    r.Keeps (t.andThen next) :=
  ⟨hn.consistent, ht.announced.append hn.announced⟩

theorem keeps_completeCardRemoval (h : r.Consistent) : r.Keeps r.completeCardRemoval := by
  refine ⟨h.completeCardRemoval, ?_⟩
  change Alternates r.cardPresent (if r.cardPresent = true then [false] else []) false
  cases r.cardPresent with
  | true => exact .cons (.nil _)
  | false => exact .nil _

theorem keeps_onTagDetected (h : r.Consistent) {kind : TagKind} (hkind : kind ≠ .none) (hclosed : r.sess = false) :
    r.Keeps (r.onTagDetected kind) := by
  refine ⟨h.onTagDetected hkind hclosed, ?_⟩
  have hsettled : r.Keeps (if r.removeDeferred then r.completeCardRemoval else .silent r) := by
    split
    · exact keeps_completeCardRemoval h
    · exact keeps_same h rfl rfl
  unfold onTagDetected
  dsimp only
  generalize (if r.removeDeferred = true then r.completeCardRemoval else Turn.silent r) = settled at hsettled ⊢
  refine hsettled.announced.append ?_
  cases hcard : settled.reader.cardPresent with
  | true =>
      change Alternates true (Turn.notified (if settled.reader.cardPresent = true then _ else _))
        (Turn.reader (if settled.reader.cardPresent = true then _ else _)).cardPresent
      rw [if_pos hcard]
      exact hcard ▸ .nil _
  | false =>
      change Alternates false (Turn.notified (if settled.reader.cardPresent = true then _ else _))
        (Turn.reader (if settled.reader.cardPresent = true then _ else _)).cardPresent
      rw [if_neg (by simp [hcard])]
      exact .cons (.nil _)

theorem keeps_onTagRemovedFromField (h : r.Consistent) (now : BitVec 32) :
    r.Keeps (r.onTagRemovedFromField now) := by
  refine ⟨h.onTagRemovedFromField now, ?_⟩
  unfold onTagRemovedFromField
  split
  · exact .nil _
  split
  · exact (keeps_completeCardRemoval h).announced
  split
  · exact .nil _
  · exact (keeps_completeCardRemoval h).announced

theorem keeps_handleBulk (h : r.Consistent) (env : BulkEnv) (frame : Frame) :
    r.Keeps (r.handleBulk env frame) := by
  obtain ⟨hc, hcard, hquiet⟩ := h.handleBulk env frame
  exact keeps_same hc hcard hquiet

theorem keeps_poll (h : r.Consistent) (env : BulkEnv) (packet : Option Frame) : r.Keeps (r.poll env packet) := by
  have hdue : r.Keeps (r.pollDeferredRemoval env.millis) := by
    unfold pollDeferredRemoval
    split
    · exact keeps_completeCardRemoval h
    · exact keeps_same h rfl rfl
  refine hdue.andThen ?_
  cases packet with
  | none => exact keeps_same hdue.consistent rfl rfl
  | some pkt => exact keeps_handleBulk hdue.consistent env _

/-- **The step lemma.** Every event the application may report keeps the invariant. -/
theorem keeps_turn (h : r.Consistent) (e : Event) (hok : e.Allowed r) : r.Keeps (e.turn r) := by
  cases e with
  | tagDetected kind => exact keeps_onTagDetected h hok.1 hok.2
  | tagRemoved now => exact keeps_onTagRemovedFromField h now
  | poll env packet => exact keeps_poll h env packet
  | bulk env frame => exact keeps_handleBulk h env frame
  | abortRequest seq => exact keeps_same (h.abortRequested seq) rfl rfl

end Reader

/-! ### Whole runs -/

/-- Every state a run reaches satisfies the lifecycle invariant, and the notifications so far lead from
an empty slot to the slot as it is. -/
theorem lifecycle_keeps {history : List (Reader × Event)} {r : Reader} (hrun : lifecycle.Run history r) :
    r.Consistent ∧ Machine.Alternates false (notifications history) r.cardPresent := by
  refine Machine.Run.invariant (P := fun history r =>
    r.Consistent ∧ Machine.Alternates false (notifications history) r.cardPresent) ?_ ?_ hrun
  · exact ⟨Reader.consistent_reset, .nil _⟩
  · intro history r e ⟨hc, hann⟩ hok
    have hkeeps := Reader.keeps_turn hc e hok
    refine ⟨hkeeps.consistent, ?_⟩
    rw [notifications, Machine.output_snoc]
    exact hann.append hkeeps.announced

/-- **The session lifecycle.** In every state of every run an open session has a present card; an open
ISO session and a selected security-key application have an open session on a Type 4 tag; an active
chain of either direction has an open session; without a session the CCID does not own the reader; a
deferred removal has no session; and the notifications alternate, the first one reporting a card. -/
theorem session_lifecycle (history : List (Reader × Event)) (r : Reader) (hrun : lifecycle.Run history r) :
    (r.sess = true → r.cardPresent = true) ∧
    (r.isoSessionOpen = true → r.sess = true ∧ r.tagKind = .type4) ∧
    (r.type4SecurityKeyApp = true → r.sess = true ∧ r.tagKind = .type4) ∧
    (r.chainActive = true → r.sess = true) ∧
    (r.cmdChainActive = true → r.sess = true) ∧
    (r.sess = false → r.owner ≠ .ccid) ∧
    (r.removeDeferred = true → r.sess = false) ∧
    List.IsChain (· ≠ ·) (false :: notifications history) := by
  obtain ⟨h, hann⟩ := lifecycle_keeps hrun
  refine ⟨h.session_card, h.iso_session, h.security_key, h.response_chain, h.command_chain, ?_,
    h.deferred_removal, hann.isChain⟩
  intro hclosed
  rw [h.owner_session hclosed]
  decide

/-- Surroundings in which everything succeeds at time zero. -/
def BulkEnv.still : BulkEnv where
  millis := 0
  openIsoSession := true
  ats := [0x78, 0x80, 0x70, 0x02]
  prepareTagForPowerOn := true
  proprietary := fun _ _ => [0x90, 0x00]
  apduExchange := fun _ _ => [0x90, 0x00]
  callbacks := 0
  abortArriving := none
  sendOk := true

def powerOnFrame : Frame := [0x62, 0, 0, 0, 0, 0, 1, 0, 0, 0]

/-- The reader with a Type 4 tag in the field. -/
def tagFound : Reader := (Reader.reset.onTagDetected .type4).reader

/-- The reader after the host has powered the tag on. -/
def poweredOn : Reader := (tagFound.handleBulk .still powerOnFrame).reader

def poweredOnHistory : List (Reader × Event) :=
  [(.reset, .tagDetected .type4), (tagFound, .bulk .still powerOnFrame)]

theorem tagFound_run : lifecycle.Run [(.reset, .tagDetected .type4)] tagFound :=
  .step .start ⟨by decide, rfl⟩

theorem poweredOn_run : lifecycle.Run poweredOnHistory poweredOn := .step tagFound_run trivial

theorem session_lifecycle_poweredOn :
    poweredOn.sess = true ∧ poweredOn.isoSessionOpen = true ∧ poweredOn.cardPresent = true ∧
      poweredOn.tagKind = .type4 ∧ List.IsChain (· ≠ ·) (false :: notifications poweredOnHistory) := by
  obtain ⟨hcard, hiso, -, -, -, -, -, hchain⟩ := session_lifecycle poweredOnHistory poweredOn poweredOn_run
  have hsess : poweredOn.sess = true := by decide
  have hopen : poweredOn.isoSessionOpen = true := by decide
  exact ⟨hsess, hopen, hcard hsess, (hiso hopen).2, hchain⟩

end NeroReader.Ccid
