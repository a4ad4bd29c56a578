import NeroReader.CcidLifecycle

/-!
The reader application above its CCID slot. Between two polls of the USB side the loop looks for a tag: in an empty
slot it reports the tag that answers, and remembers its UID; behind an announced card it probes whether that card is
still there, and reports it gone when two probes in a row found nothing, or replaced when another UID answered. A
run of the loop is a run of the slot.
-/

namespace NeroReader.Ccid

open Storage (TagKind)

/-! ### What the loop sees -/

def tagRemoveConsecutiveMisses : Nat := 2
def tagRemoveMissRetryMs : BitVec 32 := 50
def ccidPollIntervalMs : BitVec 32 := 100
def activeType4FieldLoadPresent : Int := 3
def uid14Max : Nat := 10
def uid15Len : Nat := 8
def sakIsoDepBit : Byte := 0x20

/-- What the front end would find: the UID and the SAK of an ISO 14443-A activation, the UID of an ISO 15693
inventory, and the amplitude of the field. -/
structure Probe where
  iso14443a : Option (Frame × Byte)
  iso15693 : Option Frame
  amplitude : Byte
  uid14_nonempty : ∀ card, iso14443a = some card → card.1 ≠ []
  uid14_length : ∀ card, iso14443a = some card → card.1.length ≤ uid14Max
  uid15_length : ∀ uid, iso15693 = some uid → uid.length = uid15Len

def kindOfSak (sak : Byte) : TagKind := if sak &&& sakIsoDepBit ≠ 0 then .type4 else .type2

/-- The tag that answers, ISO 14443-A first. -/
def Probe.sighting (probe : Probe) : Option (TagKind × Frame) :=
  match probe.iso14443a with
  | some (uid, sak) => some (kindOfSak sak, uid)
  | none => probe.iso15693.map fun uid => (.type5, uid)

theorem Probe.sighting_kind {probe : Probe} {kind : TagKind} {uid : Frame} (h : probe.sighting = some (kind, uid)) :
    kind ≠ .none := by
  unfold sighting at h
  cases hcard : probe.iso14443a with
  | some card =>
      rw [hcard] at h
      obtain ⟨rfl, -⟩ := Prod.mk.inj (Option.some.inj h)
      unfold kindOfSak
      split <;> simp
  | none =>
      rw [hcard] at h
      cases huid : probe.iso15693 with
      | none => rw [huid] at h; simp at h
      | some uid' =>
          rw [huid] at h
          obtain ⟨rfl, -⟩ := Prod.mk.inj (Option.some.inj h)
          simp

theorem Probe.sighting_uid {probe : Probe} {kind : TagKind} {uid : Frame} (h : probe.sighting = some (kind, uid)) :
    uid ≠ [] ∧ uid.length ≤ uid14Max := by
  unfold sighting at h
  cases hcard : probe.iso14443a with
  | some card =>
      rw [hcard] at h
      obtain ⟨-, rfl⟩ := Prod.mk.inj (Option.some.inj h)
      exact ⟨probe.uid14_nonempty card hcard, probe.uid14_length card hcard⟩
  | none =>
      rw [hcard] at h
      cases huid : probe.iso15693 with
      | none => rw [huid] at h; simp at h
      | some uid' =>
          rw [huid] at h
          obtain ⟨-, rfl⟩ := Prod.mk.inj (Option.some.inj h)
          have hlen : uid'.length = 8 := probe.uid15_length uid' huid
          refine ⟨fun hnil => ?_, Nat.le_trans (Nat.le_of_eq hlen) (Nat.le_add_right 8 2)⟩
          rw [hnil] at hlen
          exact absurd hlen (Nat.succ_ne_zero 7).symm

/-! ### The loop -/

/-- `reader_app_runtime_t` as far as the CCID loop uses it, with the UID last reported and the baseline of the
amplitude. -/
structure Runtime where
  lastUid : Frame
  baselineAmp : Byte
  removeMisses : Nat
  lastIccStatus : Byte
  lastRemoveProbeMs : BitVec 32
  lastPollMs : BitVec 32
  deriving DecidableEq, Repr

/-- What a probe behind an announced card found. -/
inductive Look where
  | absent
  | present (sameUid : Bool) (kind : TagKind) (uid : Frame)
  deriving DecidableEq, Repr

/-- `reader_ccid_fido_session_active`. -/
def Reader.fidoSessionActive (r : Reader) : Bool := r.sess && r.isoSessionOpen && r.type4SecurityKeyApp

/-- `reader_ccid_removal_probe_due`. -/
def Reader.removalProbeDue (r : Reader) (now : BitVec 32) : Bool := deadlineElapsed now r.removeDeferUntilMs

namespace Runtime

variable (rt : Runtime)

/-- `ccid_remember_last_uid`. -/
def rememberLastUid (uid : Frame) : Option Runtime :=
  if uid.length ≤ uid14Max then some { rt with lastUid := uid } else none

/-- `ccid_active_type4_field_present`. -/
def activeType4FieldPresent (amplitude : Byte) : Runtime × Bool :=
  if rt.baselineAmp = 0 then ({ rt with baselineAmp := amplitude }, true)
  else (rt, activeType4FieldLoadPresent < (rt.baselineAmp.toNat : Int) - amplitude.toNat)

/-- `ccid_probe_present_tag`. -/
def probePresentTag (probe : Probe) : Look :=
  match probe.sighting with
  | some (kind, uid) => .present (decide (uid = rt.lastUid)) kind uid
  | none => .absent

/-- The probe of an announced card, where one is due. -/
def look (ccid : Reader) (now : BitVec 32) (probe : Probe) : Runtime × Option Look :=
  let activeType4 := ccid.currentIccLevel = iccActive ∧ ccid.tagKind = .type4
  if activeType4 ∧ ccid.fidoSessionActive then (rt, none)
  else if now - rt.lastRemoveProbeMs < tagRemoveMissRetryMs then (rt, none)
  else
    let rt := { rt with lastRemoveProbeMs := now }
    if activeType4 then
      let (rt, stillPresent) := rt.activeType4FieldPresent probe.amplitude
      (rt, some (if stillPresent then .present true .type4 [] else .absent))
    else if ccid.currentIccLevel = iccActive ∧ ccid.removalProbeDue now = false then (rt, none)
    else (rt, some (rt.probePresentTag probe))

/-- What the loop makes of a probe, and what it reports. -/
def act (later : BitVec 32) : Look → Runtime × List Event
  | .present sameUid kind uid =>
      let rt := { rt with removeMisses := 0 }
      if sameUid then (rt, [])
      else
        match rt.rememberLastUid uid with
        | some rt => (rt, [.tagRemoved later, .tagDetected kind])
        | none => (rt, [])
  | .absent =>
      let rt := { rt with removeMisses := rt.removeMisses + 1 }
      if tagRemoveConsecutiveMisses ≤ rt.removeMisses then
        ({ rt with removeMisses := 0, lastUid := [] }, [.tagRemoved later])
      else (rt, [])

/-- `poll_one_cycle` in an empty slot. -/
def pollOneCycle (probe : Probe) : Runtime × List Event :=
  match probe.sighting with
  | none => (rt, [])
  | some (kind, uid) =>
      if uid = rt.lastUid then (rt, [])
      else
        match rt.rememberLastUid uid with
        | some rt => (rt, [.tagDetected kind])
        | none => (rt, [])

/-- A new status of the slot starts the count of misses again. -/
def noteIccStatus (iccStatus : Byte) : Runtime :=
  if iccStatus ≠ rt.lastIccStatus then { rt with lastIccStatus := iccStatus, removeMisses := 0 } else rt

/-- `reader_ccid_loop_step`. -/
def loopStep (ccid : Reader) (now later : BitVec 32) (probe : Probe) : Runtime × List Event :=
  let rt := rt.noteIccStatus ccid.currentIccLevel
  if ccid.currentIccLevel ≠ iccNoIcc then
    match rt.look ccid now probe with
    | (rt, none) => (rt, [])
    | (rt, some seen) => rt.act later seen
  else
    let rt := { rt with removeMisses := 0 }
    if now - rt.lastPollMs < ccidPollIntervalMs then (rt, [])
    else { rt with lastPollMs := now }.pollOneCycle probe

end Runtime

/-! ### What a step can do -/

namespace Runtime

variable {rt : Runtime}

/-- The probe that the step makes of an announced card. -/
def looked (rt : Runtime) (ccid : Reader) (now : BitVec 32) (probe : Probe) : Option Look :=
  if ccid.currentIccLevel ≠ iccNoIcc then ((rt.noteIccStatus ccid.currentIccLevel).look ccid now probe).2 else none

/-- The steps of the loop. -/
inductive Stepped (rt : Runtime) (ccid : Reader) (later : BitVec 32) (probe : Probe) :
    Option Look → Runtime → List Event → Prop where
  | quiet {rt' : Runtime} (huid : rt'.lastUid = rt.lastUid)
      (hmisses : rt'.removeMisses = 0 ∨ rt'.removeMisses = rt.removeMisses) : Stepped rt ccid later probe none rt' []
  | seen {rt' : Runtime} {kind : TagKind} {uid : Frame} (huid : rt'.lastUid = rt.lastUid)
      (hmisses : rt'.removeMisses = 0) : Stepped rt ccid later probe (some (.present true kind uid)) rt' []
  | missed {rt' : Runtime} (huid : rt'.lastUid = rt.lastUid) (hmisses : rt'.removeMisses = 1) :
      Stepped rt ccid later probe (some .absent) rt' []
  | replaced {rt' : Runtime} {kind : TagKind} {uid : Frame} (hcard : ccid.currentIccLevel ≠ iccNoIcc)
      (hsighting : probe.sighting = some (kind, uid)) (hdiffers : uid ≠ rt.lastUid) (huid : rt'.lastUid = uid)
      (hmisses : rt'.removeMisses = 0) :
      Stepped rt ccid later probe (some (.present false kind uid)) rt' [.tagRemoved later, .tagDetected kind]
  | gone {rt' : Runtime} (hcard : ccid.currentIccLevel ≠ iccNoIcc) (huid : rt'.lastUid = [])
      (hmisses : rt'.removeMisses = 0) (hbefore : rt.removeMisses ≠ 0) :
      Stepped rt ccid later probe (some .absent) rt' [.tagRemoved later]
  | found {rt' : Runtime} {kind : TagKind} {uid : Frame} (hcard : ccid.currentIccLevel = iccNoIcc)
      (hsighting : probe.sighting = some (kind, uid)) (hdiffers : uid ≠ rt.lastUid) (huid : rt'.lastUid = uid)
      (hmisses : rt'.removeMisses = 0) : Stepped rt ccid later probe none rt' [.tagDetected kind]

theorem noteIccStatus_lastUid (rt : Runtime) (iccStatus : Byte) :
    (rt.noteIccStatus iccStatus).lastUid = rt.lastUid := by
  unfold noteIccStatus
  split <;> rfl

theorem noteIccStatus_removeMisses (rt : Runtime) (iccStatus : Byte) :
    (rt.noteIccStatus iccStatus).removeMisses = 0 ∨ (rt.noteIccStatus iccStatus).removeMisses = rt.removeMisses := by
  unfold noteIccStatus
  split
  · exact .inl rfl
  · exact .inr rfl

/-- A probe leaves the UID and the count alone, and one that saw another card saw it answer. -/
theorem look_spec (rt : Runtime) (ccid : Reader) (now : BitVec 32) (probe : Probe) :
    (rt.look ccid now probe).1.lastUid = rt.lastUid ∧
      (rt.look ccid now probe).1.removeMisses = rt.removeMisses ∧
      ∀ kind uid, (rt.look ccid now probe).2 = some (.present false kind uid) →
        probe.sighting = some (kind, uid) ∧ uid ≠ rt.lastUid := by
  unfold look
  dsimp only
  split
  · exact ⟨rfl, rfl, by simp⟩
  split
  · exact ⟨rfl, rfl, by simp⟩
  split
  · unfold activeType4FieldPresent
    split
    · exact ⟨rfl, rfl, by simp⟩
    · refine ⟨rfl, rfl, fun kind uid h => ?_⟩
      dsimp only at h
      split at h <;> simp at h
  split
  · exact ⟨rfl, rfl, by simp⟩
  refine ⟨rfl, rfl, fun kind uid h => ?_⟩
  have hprobe := Option.some.inj h
  unfold probePresentTag at hprobe
  cases hsighting : probe.sighting with
  | none => rw [hsighting] at hprobe; simp at hprobe
  | some seen =>
      rw [hsighting] at hprobe
      obtain ⟨hsame, rfl, rfl⟩ := Look.present.inj hprobe
      exact ⟨rfl, of_decide_eq_false hsame⟩

/-- **The inversion lemma of the loop.** -/
theorem loopStep_stepped (rt : Runtime) (ccid : Reader) (now later : BitVec 32) (probe : Probe) :
    rt.Stepped ccid later probe (rt.looked ccid now probe) (rt.loopStep ccid now later probe).1
      (rt.loopStep ccid now later probe).2 := by
  have huid := rt.noteIccStatus_lastUid ccid.currentIccLevel
  have hmisses := rt.noteIccStatus_removeMisses ccid.currentIccLevel
  unfold loopStep looked
  dsimp only
  generalize rt.noteIccStatus ccid.currentIccLevel = noted at huid hmisses
  by_cases hcard : ccid.currentIccLevel ≠ iccNoIcc
  · rw [if_pos hcard, if_pos hcard]
    obtain ⟨hlookUid, hlookMisses, hother⟩ := look_spec noted ccid now probe
    generalize noted.look ccid now probe = looked at hlookUid hlookMisses hother
    obtain ⟨rt', _ | _ | ⟨sameUid, kind, uid⟩⟩ := looked
    · exact .quiet (hlookUid.trans huid) (hlookMisses ▸ hmisses)
    · simp only [act]
      by_cases hagain : tagRemoveConsecutiveMisses ≤ rt'.removeMisses + 1
      · rw [if_pos hagain]
        refine .gone hcard rfl rfl fun hzero => ?_
        rw [hzero] at hmisses
        have : rt'.removeMisses = 0 := hlookMisses.trans (hmisses.elim id id)
        rw [this] at hagain
        exact absurd hagain (by decide)
      · rw [if_neg hagain]
        refine .missed (hlookUid.trans huid) ?_
        have : ¬ 2 ≤ rt'.removeMisses + 1 := hagain
        change rt'.removeMisses + 1 = 1
        omega
    · cases sameUid with
      | true => exact .seen (hlookUid.trans huid) rfl
      | false =>
          obtain ⟨hsighting, hdiffers⟩ := hother kind uid rfl
          have hfits := (Probe.sighting_uid hsighting).2
          simp only [act, rememberLastUid, if_pos hfits]
          exact .replaced hcard hsighting (huid ▸ hdiffers) rfl rfl
  · rw [if_neg hcard, if_neg hcard]
    by_cases hearly : now - noted.lastPollMs < ccidPollIntervalMs
    · rw [if_pos hearly]
      exact .quiet huid (.inl rfl)
    rw [if_neg hearly]
    unfold pollOneCycle
    cases hsighting : probe.sighting with
    | none => exact .quiet huid (.inl rfl)
    | some seen =>
        obtain ⟨kind, uid⟩ := seen
        by_cases hsame : uid = noted.lastUid
        · simp only [if_pos hsame]
          exact .quiet huid (.inl rfl)
        · have hfits := (Probe.sighting_uid hsighting).2
          simp only [if_neg hsame, rememberLastUid, if_pos hfits]
          exact .found (not_not.mp hcard) hsighting (huid ▸ hsame) rfl rfl

end Runtime

/-! ### The application above the slot -/

structure App where
  ccid : Reader
  runtime : Runtime

/-- The loop polls the USB side and takes a step; an abort request comes when it comes. -/
inductive AppEvent where
  | poll (env : BulkEnv) (packet : Option Frame)
  | loopStep (now later : BitVec 32) (probe : Probe)
  | abortRequest (seq : Byte)

namespace App

/-- What an event of the application is to the slot. -/
def reports (app : App) : AppEvent → List Event
  | .poll env packet => [.poll env packet]
  | .loopStep now later probe => (app.runtime.loopStep app.ccid now later probe).2
  | .abortRequest seq => [.abortRequest seq]

def next (app : App) (e : AppEvent) : App where
  ccid := lifecycle.after app.ccid (app.reports e)
  runtime :=
    match e with
    | .loopStep now later probe => (app.runtime.loopStep app.ccid now later probe).1
    | .poll _ _ | .abortRequest _ => app.runtime

/-- Reset, with the baseline that was measured. -/
def start (baselineAmp : Byte) : App where
  ccid := .reset
  runtime := ⟨[], baselineAmp, 0, iccNoIcc, 0, 0⟩

/-- The application as a machine. Nothing is assumed of its events. -/
def machine (baselineAmp : Byte) : Machine App AppEvent where
  init := start baselineAmp
  allowed := fun _ _ => True
  next := next

/-- The history of the slot in a history of the application. -/
def slotHistory (history : List (App × AppEvent)) : List (Reader × Event) :=
  lifecycle.driven ccid reports history

end App

/-! ### The slot's rule -/

namespace Reader

variable {r : Reader}

theorem onTagRemovedFromField_sess (h : r.Consistent) (now : BitVec 32) :
    (r.onTagRemovedFromField now).reader.sess = false := by
  unfold onTagRemovedFromField
  cases hcard : r.cardPresent with
  | false =>
      rw [if_pos rfl]
      exact Bool.eq_false_iff.mpr fun hsess => Bool.false_ne_true (hcard.symm.trans (h.session_card hsess))
  | true =>
      rw [if_neg (by simp)]
      cases hsess : r.sess with
      | true => rfl
      | false =>
          rw [if_neg Bool.false_ne_true]
          by_cases hearly : deadlineElapsed now r.removeDeferUntilMs = false
          · rw [if_pos hearly]
            rfl
          · rw [if_neg hearly]
            rfl

theorem cardPresent_of_currentIccLevel (h : r.currentIccLevel = iccNoIcc) : r.cardPresent = false := by
  unfold currentIccLevel at h
  cases hcard : r.cardPresent with
  | false => rfl
  | true =>
      rw [hcard, if_neg (by simp)] at h
      cases hsess : r.sess <;> rw [hsess] at h <;> exact absurd h (by decide)

end Reader

/-! ### Only a removal is deferred -/

namespace Reader

/-- No removal waits. -/
def Settled (r : Reader) : Prop := r.removeDeferred = false

variable {r : Reader}

theorem Settled.noteHostSessionActivity (h : r.Settled) (now : BitVec 32) :
    (r.noteHostSessionActivity now).Settled := by
  unfold Reader.noteHostSessionActivity
  split
  · exact h
  · exact rfl

theorem Settled.abortArrives (h : r.Settled) (arriving : Option Byte) : (r.abortArrives arriving).Settled := by
  cases arriving <;> exact h

theorem Settled.clearAbortRequest (h : r.Settled) (slot seq : Byte) : (r.clearAbortRequest slot seq).Settled := by
  unfold Reader.clearAbortRequest
  split <;> exact h

theorem Settled.sendXfrChainChunk (h : r.Settled) (env : BulkEnv) (seq : Byte) :
    (r.sendXfrChainChunk env seq).reader.Settled := by
  unfold Reader.sendXfrChainChunk
  split
  · exact h
  dsimp only
  split <;> exact h

theorem Settled.sendXfrDataResponse (h : r.Settled) (env : BulkEnv) (seq : Byte) (data : Frame) :
    (r.sendXfrDataResponse env seq data).reader.Settled := by
  unfold Reader.sendXfrDataResponse
  dsimp only
  split
  · exact h
  split
  · exact h
  have hloaded :
    Reader.Settled { r.clearXfrResponseChain with chainBuf := data, chainOff := 0, chainActive := true } := h
  exact hloaded.sendXfrChainChunk env seq

theorem Settled.dispatchHostPayload (h : r.Settled) (env : BulkEnv) (payload : Frame) (rspCap : Nat) :
    (r.dispatchHostPayload env payload rspCap).1.Settled := by
  have hnoted : ∀ s : Reader, s.Settled → ∀ rsp : Frame,
      (if rsp ≠ [] then s.noteHostSessionActivity env.millis else s).Settled := by
    intro s hs rsp
    split
    · exact hs.noteHostSessionActivity _
    · exact hs
  unfold Reader.dispatchHostPayload
  split
  · exact h
  split
  · exact h
  dsimp only
  apply hnoted
  split
  · exact h
  split
  · exact h
  split
  · exact h
  · split <;> exact h

theorem Settled.xfrDispatch (h : r.Settled) (env : BulkEnv) (frame apdu : Frame) :
    (r.xfrDispatch env frame apdu).reader.Settled := by
  have hbound : (if r.bindsTimeExtension apdu then r.beginTimeExtension (seqOf frame) else r).Settled := by
    split <;> exact h
  have hhandled : (r.xfrHandled env frame apdu).1.Settled := by
    unfold xfrHandled
    dsimp only
    split <;> exact (hbound.dispatchHostPayload env apdu _).abortArrives _
  change ((r.xfrHandled env frame apdu).1.xfrFinish env frame _).reader.Settled
  unfold xfrFinish
  split
  · exact hhandled
  · exact hhandled.sendXfrDataResponse env _ _

theorem Settled.appendXfrCommandChain (h : r.Settled) (data : Frame) (beginChain : Bool) :
    (r.appendXfrCommandChain data beginChain).1.Settled := by
  unfold Reader.appendXfrCommandChain
  split
  · exact h
  dsimp only
  have hbegun : (if beginChain = true then r.clearXfrCommandChain else r).Settled := by
    split <;> exact h
  generalize (if beginChain = true then r.clearXfrCommandChain else r) = s at hbegun ⊢
  split
  · exact hbegun
  split <;> exact hbegun

theorem Settled.xfr (h : r.Settled) (env : BulkEnv) (frame : Frame) : (r.xfr env frame).reader.Settled := by
  unfold Reader.xfr
  dsimp only
  split
  · exact h
  split
  · split
    · exact h
    · exact h.xfrDispatch env frame _
  have hchain := h.appendXfrCommandChain (payloadOf frame) (xfrLevelParameter frame == xfrLevelChainBegin.setWidth 16)
  generalize r.appendXfrCommandChain (payloadOf frame) _ = appended at hchain ⊢
  obtain ⟨s, _ | _⟩ := appended
  · exact hchain
  · dsimp only
    split
    · exact hchain
    · exact hchain.xfrDispatch env frame _

theorem Settled.powerOnDone (h : r.Settled) (env : BulkEnv) (seq : Byte) (atr : Frame) :
    (r.powerOnDone env seq atr).reader.Settled := by
  have hopened : Reader.Settled { r with sess := true, owner := .ccid } := h
  exact hopened.noteHostSessionActivity env.millis

theorem Settled.iccOn (h : r.Settled) (env : BulkEnv) (frame : Frame) : (r.iccOn env frame).reader.Settled := by
  unfold Reader.iccOn
  dsimp only
  split
  · exact h
  split
  · exact h
  split
  · unfold powerOnType4
    dsimp only [Turn.andThen]
    generalize (if env.openIsoSession = true then copyAtsAsPcscAtr env.ats rspDataCap else none) = atr
    cases atr with
    | none => exact h
    | some atr =>
        have hopen :
          Reader.Settled { (r.teardownSession.beginTimeExtension (seqOf frame)).setProtocol protocolNumT1 with
            isoSessionOpen := true, type4SecurityKeyApp := false } := h
        exact hopen.powerOnDone env (seqOf frame) atr
  · have hprotocol : (r.teardownSession.setProtocol (protocolForTag r.teardownSession.tagKind)).Settled := h
    unfold powerOnStorage
    dsimp only
    split
    · exact h
    generalize copyStorageCardAtr _ rspDataCap = atr
    cases atr with
    | none => exact h
    | some atr => exact hprotocol.powerOnDone env (seqOf frame) atr

theorem Settled.settleChains (h : r.Settled) (frame : Frame) : (r.settleChains frame).Settled := by
  unfold Reader.settleChains
  dsimp only
  have hresponse : (if r.chainActive = true then r.clearXfrResponseChain else r).Settled := by
    split <;> exact h
  generalize (if r.chainActive = true then r.clearXfrResponseChain else r) = s at hresponse ⊢
  split <;> exact hresponse

theorem Settled.command (h : r.Settled) (env : BulkEnv) (frame : Frame) (dataLen : Nat) :
    (r.command env frame dataLen).reader.Settled := by
  unfold Reader.command
  cases commandOf frame with
  | slotStatus => exact h
  | iccOff => exact h
  | iccOn => exact h.iccOn env frame
  | getParams | resetParams | setParams =>
      have hprotocol : ∀ protocolNum, (r.setProtocol protocolNum).Settled := fun _ => h
      exact (hprotocol _).noteHostSessionActivity env.millis
  | abort =>
      have hcleared : r.clearXfrResponseChain.clearXfrCommandChain.Settled := h
      exact hcleared.clearAbortRequest _ _
  | iccClock | t0Apdu | mechanical => exact h
  | secure => exact h
  | escape => exact h
  | setRateClock => exact h
  | xfr => exact h.xfr env frame
  | other => exact h

/-- **A command of the host never defers a removal.** -/
theorem Settled.handleBulk (h : r.Settled) (env : BulkEnv) (frame : Frame) :
    (r.handleBulk env frame).reader.Settled := by
  unfold Reader.handleBulk
  cases bulkFrameValidate frame with
  | none =>
      dsimp only
      split <;> exact h
  | some dataLen =>
      dsimp only
      cases r.bulkRefusal frame dataLen with
      | some refusal => exact h
      | none =>
          dsimp only
          split
          · split
            · exact h.sendXfrChainChunk env _
            · exact h
          · split
            · exact h.settleChains frame
            · exact (h.settleChains frame).command env frame dataLen

/-- A poll takes a card out of the slot when its removal waits, and then only. -/
theorem poll_card (h : r.Consistent) (env : BulkEnv) (packet : Option Frame) :
    (r.poll env packet).reader.cardPresent = (r.cardPresent && !r.removeDeferred) ∧
      (false ∈ (r.poll env packet).notified → r.removeDeferred = true) := by
  have hdue : (r.pollDeferredRemoval env.millis).reader.Consistent ∧
      (r.pollDeferredRemoval env.millis).reader.cardPresent = (r.cardPresent && !r.removeDeferred) ∧
      (false ∈ (r.pollDeferredRemoval env.millis).notified → r.removeDeferred = true) := by
    refine ⟨h.pollDeferredRemoval env.millis, ?_⟩
    unfold pollDeferredRemoval
    cases hdeferred : r.removeDeferred with
    | true =>
        rw [if_pos ⟨rfl, .inl (h.deferred_removal hdeferred)⟩]
        exact ⟨(Bool.and_false _).symm, fun _ => rfl⟩
    | false =>
        rw [if_neg fun hwaits => Bool.false_ne_true hwaits.1]
        exact ⟨(Bool.and_true _).symm, fun hmem => absurd hmem (by simp [Turn.silent])⟩
  cases packet with
  | none =>
      refine ⟨hdue.2.1, fun hmem => hdue.2.2 ?_⟩
      change false ∈ (r.pollDeferredRemoval env.millis).notified ++ [] at hmem
      rwa [List.append_nil] at hmem
  | some packet =>
      obtain ⟨-, hcard, hquiet⟩ := hdue.1.handleBulk env (packet.take workBufSize)
      refine ⟨hcard.trans hdue.2.1, fun hmem => hdue.2.2 ?_⟩
      change false ∈ (r.pollDeferredRemoval env.millis).notified ++ _ at hmem
      rwa [hquiet, List.append_nil] at hmem

/-- A poll never tells of a card. -/
theorem poll_tells_no_card {r : Reader} (h : r.Consistent) (env : BulkEnv) (packet : Option Frame) :
    true ∉ (r.poll env packet).notified := by
  have hdue : true ∉ (r.pollDeferredRemoval env.millis).notified := by
    unfold pollDeferredRemoval completeCardRemoval
    split
    · dsimp only
      split <;> simp
    · exact List.not_mem_nil
  cases packet with
  | none =>
      change true ∉ (r.pollDeferredRemoval env.millis).notified ++ []
      rwa [List.append_nil]
  | some packet =>
      obtain ⟨-, -, hquiet⟩ := (h.pollDeferredRemoval env.millis).handleBulk env (packet.take workBufSize)
      change true ∉ (r.pollDeferredRemoval env.millis).notified ++ _
      rwa [hquiet, List.append_nil]

/-- A poll settles what is deferred. -/
theorem settled_poll (h : r.Consistent) (env : BulkEnv) (packet : Option Frame) :
    (r.poll env packet).reader.Settled := by
  have hdue : (r.pollDeferredRemoval env.millis).reader.Settled := by
    unfold pollDeferredRemoval
    by_cases hdeferred : r.removeDeferred = true
    · rw [if_pos ⟨hdeferred, .inl (h.deferred_removal hdeferred)⟩]
      rfl
    · rw [if_neg fun hwaits => hdeferred hwaits.1]
      exact Bool.eq_false_iff.mpr hdeferred
  cases packet with
  | none => exact hdue
  | some packet => exact hdue.handleBulk env _

end Reader

namespace App

open Machine (Alternates)

variable {app : App}

/-- A step of the loop, as one of its cases. -/
theorem exists_step (app : App) (now later : BitVec 32) (probe : Probe) : ∃ seen rt events,
    app.runtime.looked app.ccid now probe = seen ∧
      app.next (.loopStep now later probe) = ⟨lifecycle.after app.ccid events, rt⟩ ∧
      app.reports (.loopStep now later probe) = events ∧ app.runtime.Stepped app.ccid later probe seen rt events :=
  ⟨_, _, _, rfl, rfl, rfl, app.runtime.loopStep_stepped app.ccid now later probe⟩

/-- **The loop keeps the slot's rule.** It reports a tag only where no session is open. -/
theorem reports_admitted (app : App) (h : app.ccid.Consistent) (e : AppEvent) :
    lifecycle.Admits app.ccid (app.reports e) := by
  cases e with
  | poll env packet => exact ⟨trivial, trivial⟩
  | abortRequest seq => exact ⟨trivial, trivial⟩
  | loopStep now later probe =>
      obtain ⟨seen, rt, events, -, -, hreports, hstep⟩ := app.exists_step now later probe
      rw [hreports]
      cases hstep with
      | quiet _ _ => exact trivial
      | seen _ _ => exact trivial
      | missed _ _ => exact trivial
      | replaced _ hsighting _ _ _ =>
          exact ⟨trivial, ⟨Probe.sighting_kind hsighting, Reader.onTagRemovedFromField_sess h later⟩, trivial⟩
      | gone _ _ _ _ => exact ⟨trivial, trivial⟩
      | found hcard hsighting _ _ _ =>
          refine ⟨⟨Probe.sighting_kind hsighting, Bool.eq_false_iff.mpr fun hsess => ?_⟩, trivial⟩
          exact Bool.false_ne_true ((Reader.cardPresent_of_currentIccLevel hcard).symm.trans (h.session_card hsess))

theorem slot_run {baselineAmp : Byte} {history : List (App × AppEvent)}
    (hrun : (machine baselineAmp).Run history app) : lifecycle.Run (slotHistory history) app.ccid := by
  have hinit : ccid (machine baselineAmp).init = lifecycle.init := rfl
  refine Machine.Run.driven hinit (fun _ _ => rfl) ?_ hrun
  intro past app e hslot _
  exact app.reports_admitted (lifecycle_keeps hslot).1 e

end App

/-! ### What the reports do to the slot -/

namespace Reader

theorem onTagDetected_reader (r : Reader) (kind : TagKind) :
    (r.onTagDetected kind).reader.cardPresent = true ∧ (r.onTagDetected kind).reader.removeDeferred = false ∧
      (r.onTagDetected kind).reader.tagKind = kind := by
  unfold onTagDetected
  dsimp only [Turn.andThen]
  generalize (if r.removeDeferred = true then r.completeCardRemoval else Turn.silent r) = settled
  by_cases hcard : settled.reader.cardPresent = true
  · have hsame : settled.reader.clearXfrResponseChain.cardPresent = true := hcard
    rw [if_pos hsame]
    exact ⟨hsame, rfl, rfl⟩
  · have hsame : ¬ settled.reader.clearXfrResponseChain.cardPresent = true := hcard
    rw [if_neg hsame]
    exact ⟨rfl, rfl, rfl⟩

theorem onTagRemovedFromField_cases {r : Reader} (hcard : r.cardPresent = true) (now : BitVec 32) :
    r.onTagRemovedFromField now = r.completeCardRemoval ∨
      r.sess = false ∧ r.onTagRemovedFromField now = .silent { r with removeDeferred := true } := by
  unfold onTagRemovedFromField
  rw [if_neg (by simp [hcard])]
  cases hsess : r.sess with
  | true => exact .inl rfl
  | false =>
      rw [if_neg Bool.false_ne_true]
      by_cases hearly : deadlineElapsed now r.removeDeferUntilMs = false
      · rw [if_pos hearly]
        exact .inr ⟨rfl, rfl⟩
      · rw [if_neg hearly]
        exact .inl rfl

theorem removed_tells_no_card {r : Reader} (hcard : r.cardPresent = true) (later : BitVec 32) :
    true ∉ notifications (lifecycle.trace r [.tagRemoved later]) := by
  change true ∉ (r.onTagRemovedFromField later).notified ++ []
  rw [List.append_nil]
  rcases onTagRemovedFromField_cases hcard later with hremoved | ⟨-, hremoved⟩
  · rw [hremoved, show r.completeCardRemoval.notified = [false] from if_pos hcard]
    simp
  · rw [hremoved]
    exact List.not_mem_nil

/-- A card that is replaced leaves the slot, at once or when the new one comes. -/
theorem replaced_spec {r : Reader} (hcard : r.cardPresent = true) (later : BitVec 32) (kind : TagKind) :
    notifications (lifecycle.trace r [.tagRemoved later, .tagDetected kind]) = [false, true] ∧
      (lifecycle.after r [.tagRemoved later, .tagDetected kind]).sess = false := by
  change (r.onTagRemovedFromField later).notified ++
    (((r.onTagRemovedFromField later).reader.onTagDetected kind).notified ++ []) = [false, true] ∧
    ((r.onTagRemovedFromField later).reader.onTagDetected kind).reader.sess = false
  rcases onTagRemovedFromField_cases hcard later with hremoved | ⟨hsess, hremoved⟩
  · rw [hremoved]
    have hannounced : r.completeCardRemoval.notified = [false] := if_pos hcard
    rw [hannounced]
    exact ⟨rfl, rfl⟩
  · rw [hremoved]
    have hannounced : Turn.notified (Reader.completeCardRemoval { r with removeDeferred := true }) = [false] :=
      if_pos hcard
    refine ⟨?_, rfl⟩
    change [] ++ ((Turn.notified (Reader.completeCardRemoval { r with removeDeferred := true }) ++ [true]) ++ []) = _
    rw [hannounced]
    rfl

theorem found_spec {r : Reader} (hcard : r.cardPresent = false) (kind : TagKind) :
    notifications (lifecycle.trace r [.tagDetected kind]) = [true] := by
  change (r.onTagDetected kind).notified ++ [] = [true]
  unfold onTagDetected
  cases hdeferred : r.removeDeferred with
  | true =>
      have hquiet : r.completeCardRemoval.notified = [] := if_neg (by simp [hcard])
      change (r.completeCardRemoval.notified ++ [true]) ++ [] = [true]
      rw [hquiet]
      rfl
  | false =>
      have hempty : ¬ r.clearXfrResponseChain.cardPresent = true := by
        change ¬ r.cardPresent = true
        simp [hcard]
      dsimp only [Turn.andThen, Turn.silent]
      rw [if_neg Bool.false_ne_true]
      dsimp only
      rw [if_neg hempty]
      rfl

end Reader

namespace App

variable {app : App}

theorem cardPresent_of_status (hcard : app.ccid.currentIccLevel ≠ iccNoIcc) :
    app.ccid.cardPresent = true := by
  cases hpresent : app.ccid.cardPresent with
  | true => rfl
  | false =>
      unfold Reader.currentIccLevel at hcard
      rw [hpresent, if_pos rfl] at hcard
      exact absurd rfl hcard

/-- The last UID is remembered while its card is in the slot and no removal waits. -/
def Armed (app : App) : Prop :=
  app.runtime.lastUid = [] ↔ app.ccid.cardPresent = false ∨ app.ccid.removeDeferred = true

theorem Armed.next (h : app.Armed) (hc : app.ccid.Consistent) (e : AppEvent) : (app.next e).Armed := by
  cases e with
  | abortRequest seq => exact h
  | poll env packet =>
      have hsettled : (app.ccid.poll env packet).reader.removeDeferred = false := Reader.settled_poll hc env packet
      have hcard := (Reader.poll_card hc env packet).1
      change app.runtime.lastUid = [] ↔ (app.ccid.poll env packet).reader.cardPresent = false ∨
        (app.ccid.poll env packet).reader.removeDeferred = true
      rw [hsettled, hcard]
      refine Iff.trans h ?_
      cases app.ccid.cardPresent <;> cases app.ccid.removeDeferred <;> simp
  | loopStep now later probe =>
      obtain ⟨seen, rt, events, -, hnext, -, hstep⟩ := app.exists_step now later probe
      rw [hnext]
      have harmed {kind : TagKind} {uid : Frame} (r : Reader) (hsighting : probe.sighting = some (kind, uid))
          (huid : rt.lastUid = uid) : Armed ⟨(r.onTagDetected kind).reader, rt⟩ := by
        obtain ⟨hpresent, hsettled, -⟩ := r.onTagDetected_reader kind
        refine ⟨fun hnil => absurd (huid.symm.trans hnil) (Probe.sighting_uid hsighting).1, fun hempty => ?_⟩
        exact absurd hempty (by simp [hpresent, hsettled])
      cases hstep with
      | quiet huid _ => rwa [Armed, huid]
      | seen huid _ => rwa [Armed, huid]
      | missed huid _ => rwa [Armed, huid]
      | replaced _ hsighting _ huid _ => exact harmed _ hsighting huid
      | gone hcard huid _ _ =>
          refine ⟨fun _ => ?_, fun _ => huid⟩
          change (app.ccid.onTagRemovedFromField later).reader.cardPresent = false ∨
            (app.ccid.onTagRemovedFromField later).reader.removeDeferred = true
          rcases Reader.onTagRemovedFromField_cases (cardPresent_of_status hcard) later with
            hremoved | ⟨-, hremoved⟩
          · exact .inl (by rw [hremoved]; rfl)
          · exact .inr (by rw [hremoved]; rfl)
      | found _ hsighting _ huid _ => exact harmed _ hsighting huid

/-! ### Whole runs -/

theorem run_consistent {baselineAmp : Byte} {history : List (App × AppEvent)}
    (hrun : (machine baselineAmp).Run history app) : app.ccid.Consistent := (lifecycle_keeps (slot_run hrun)).1

theorem run_armed {baselineAmp : Byte} {history : List (App × AppEvent)}
    (hrun : (machine baselineAmp).Run history app) :
    app.Armed := by
  induction hrun with
  | start => exact ⟨fun _ => .inl rfl, fun _ => rfl⟩
  | @step _ app e hrun _ ih => exact ih.next (run_consistent hrun) e

/-- What a history announced to the host. -/
def announcements (history : List (App × AppEvent)) : List Bool := notifications (slotHistory history)

/-- **The application keeps to the slot's rule in every run, whatever tags come, go or are exchanged.** What it does to
the slot is a run of the slot, so that the slot is consistent and its notifications alternate. -/
theorem app_lifecycle (baselineAmp : Byte) (history : List (App × AppEvent)) (app : App)
    (hrun : (machine baselineAmp).Run history app) :
    lifecycle.Run (slotHistory history) app.ccid ∧ app.ccid.Consistent ∧
      List.IsChain (· ≠ ·) (false :: announcements history) :=
  ⟨slot_run hrun, run_consistent hrun, (lifecycle_keeps (slot_run hrun)).2.isChain⟩

theorem none_eq_some {α : Type} {P : α → Prop} (a : α) (h : none = some a) : P a := absurd h (by simp)

theorem some_eq_some {α : Type} {P : α → Prop} {a : α} (ha : P a) (b : α) (h : some a = some b) : P b :=
  Option.some.inj h ▸ ha

def nothingThere : Probe := ⟨none, none, 0, none_eq_some, none_eq_some, none_eq_some⟩

def securityKey : Frame × Byte := ([0x04, 0xA1, 0xB2, 0xC3], 0x20)

theorem securityKey_nonempty : securityKey.1 ≠ [] := List.cons_ne_nil _ _

theorem securityKey_length : securityKey.1.length ≤ uid14Max := Nat.le_add_right 4 6

def keyThere : Probe :=
  ⟨some securityKey, none, 0, some_eq_some securityKey_nonempty, some_eq_some securityKey_length, none_eq_some⟩

def keyArrives : AppEvent := .loopStep 100 100 keyThere

def keyMissed (now : BitVec 32) : AppEvent := .loopStep now now nothingThere

/-- The application behind some events. -/
def behind (events : List AppEvent) : App := (machine 0).after (start 0) events

theorem run_behind (events : List AppEvent) :
    (machine 0).Run ((machine 0).trace (start 0) events) (behind events) := by
  have hadmits : ∀ (app : App) (events : List AppEvent), (machine 0).Admits app events := by
    intro app events
    induction events generalizing app with
    | nil => exact trivial
    | cons e events ih => exact ⟨trivial, ih _⟩
  exact Machine.Run.extend .start (hadmits _ events)

theorem app_lifecycle_key :
    announcements ((machine 0).trace (start 0) [keyArrives]) = [true] ∧
      (behind [keyArrives]).ccid.Consistent := by
  obtain ⟨-, hconsistent, -⟩ := app_lifecycle 0 _ _ (run_behind [keyArrives])
  exact ⟨rfl, hconsistent⟩

/-- What a step announced to the host. -/
def announces (app : App) (e : AppEvent) : List Bool := notifications (lifecycle.trace app.ccid (app.reports e))

/-- The time between two looks into an empty slot has passed. -/
def PollDue (app : App) (now : BitVec 32) : Prop := ccidPollIntervalMs ≤ now - app.runtime.lastPollMs

/-- In an empty slot whose last UID is forgotten, the tag that answers a poll is reported. -/
theorem next_of_sighting {kind : TagKind} {uid : Frame} (hcard : app.ccid.cardPresent = false)
    (hforgotten : app.runtime.lastUid = []) {now : BitVec 32} (hdue : app.PollDue now) {probe : Probe}
    (hsighting : probe.sighting = some (kind, uid)) (later : BitVec 32) :
    app.reports (.loopStep now later probe) = [.tagDetected kind] ∧
      (app.next (.loopStep now later probe)).runtime.lastUid = uid := by
  have hstatus : app.ccid.currentIccLevel = iccNoIcc := if_pos hcard
  have hpoll : (app.runtime.noteIccStatus app.ccid.currentIccLevel).lastPollMs = app.runtime.lastPollMs := by
    unfold Runtime.noteIccStatus
    split <;> rfl
  have huid := app.runtime.noteIccStatus_lastUid app.ccid.currentIccLevel
  have hnow : ¬ now - (app.runtime.noteIccStatus app.ccid.currentIccLevel).lastPollMs < ccidPollIntervalMs := by
    rw [hpoll]
    exact BitVec.not_lt.mpr hdue
  obtain ⟨hnonempty, hfits⟩ := Probe.sighting_uid hsighting
  have hdiffers : uid ≠ (app.runtime.noteIccStatus app.ccid.currentIccLevel).lastUid := by
    rw [huid, hforgotten]
    exact hnonempty
  have hstep : app.runtime.loopStep app.ccid now later probe =
      ({ app.runtime.noteIccStatus app.ccid.currentIccLevel with removeMisses := 0, lastPollMs := now, lastUid := uid },
        [.tagDetected kind]) := by
    simp only [Runtime.loopStep, if_neg (not_not.mpr hstatus), if_neg hnow, Runtime.pollOneCycle, hsighting,
      if_neg hdiffers, Runtime.rememberLastUid, if_pos hfits]
  exact ⟨congrArg Prod.snd hstep, congrArg (fun result => result.1.lastUid) hstep⟩

/-- **In every state of every run an empty slot is armed: the tag that answers the next due poll is announced**, under
its own UID. A card that another UID answers for leaves the slot with its session, and the other one is announced. -/
theorem app_tracks (baselineAmp : Byte) (history : List (App × AppEvent)) (app : App)
    (hrun : (machine baselineAmp).Run history app) (now later : BitVec 32) (probe : Probe) (kind : TagKind)
    (uid : Frame) :
    (app.ccid.cardPresent = false → app.PollDue now → probe.sighting = some (kind, uid) →
      app.announces (.loopStep now later probe) = [true] ∧
        (app.next (.loopStep now later probe)).ccid.tagKind = kind ∧
        (app.next (.loopStep now later probe)).runtime.lastUid = uid) ∧
    (app.runtime.looked app.ccid now probe = some (.present false kind uid) →
      app.announces (.loopStep now later probe) = [false, true] ∧
        (app.next (.loopStep now later probe)).ccid.sess = false ∧
        (app.next (.loopStep now later probe)).ccid.tagKind = kind ∧
        (app.next (.loopStep now later probe)).runtime.lastUid = uid) := by
  constructor
  · intro hcard hdue hsighting
    have hforgotten : app.runtime.lastUid = [] := (run_armed hrun).mpr (.inl hcard)
    obtain ⟨hreports, huid⟩ := next_of_sighting hcard hforgotten hdue hsighting later
    refine ⟨?_, ?_, huid⟩
    · rw [announces, hreports, Reader.found_spec hcard]
    · change (lifecycle.after app.ccid (app.reports (.loopStep now later probe))).tagKind = kind
      rw [hreports]
      exact (app.ccid.onTagDetected_reader kind).2.2
  · intro hlooked
    obtain ⟨seen, rt, events, hseen, hnext, hreports, hstep⟩ := app.exists_step now later probe
    rw [hlooked] at hseen
    subst hseen
    rw [announces, hreports, hnext]
    cases hstep with
    | replaced hcard hsighting _ huid _ =>
        obtain ⟨hannounced, hclosed⟩ := Reader.replaced_spec (cardPresent_of_status hcard) later kind
        exact ⟨hannounced, hclosed, (Reader.onTagDetected_reader _ kind).2.2, huid⟩

def labelUid : Frame := [0x01, 0x02, 0x03, 0x04, 0x05, 0x06, 0x07, 0xE0]

theorem labelUid_length : labelUid.length = uid15Len := rfl

def labelThere : Probe := ⟨none, some labelUid, 0, none_eq_some, none_eq_some, some_eq_some labelUid_length⟩

theorem app_tracks_key :
    ((start 0).announces keyArrives = [true] ∧ (behind [keyArrives]).ccid.tagKind = .type4 ∧
      (behind [keyArrives]).runtime.lastUid = securityKey.1) ∧
    (behind [keyArrives]).announces (.loopStep 200 200 labelThere) = [false, true] ∧
      (behind [keyArrives, .loopStep 200 200 labelThere]).ccid.tagKind = .type5 ∧
      (behind [keyArrives, .loopStep 200 200 labelThere]).runtime.lastUid = labelUid := by
  refine ⟨(app_tracks 0 [] (start 0) .start 100 100 keyThere .type4 securityKey.1).1 rfl (BitVec.le_refl _) rfl, ?_⟩
  have hlooked : (behind [keyArrives]).runtime.looked (behind [keyArrives]).ccid 200 labelThere =
    some (.present false .type5 labelUid) := by decide
  obtain ⟨hannounced, -, hkind, huid⟩ :=
    (app_tracks 0 _ _ (run_behind [keyArrives]) 200 200 labelThere .type5 labelUid).2 hlooked
  exact ⟨hannounced, hkind, huid⟩

/-! ### Removals -/

/-- What the event's probe of an announced card found, if it made one. -/
def lookOf (app : App) : AppEvent → List Look
  | .loopStep now _ probe => (app.runtime.looked app.ccid now probe).toList
  | .poll _ _ | .abortRequest _ => []

/-- The probes made since the host was last told of a card. -/
def looksSince (history : List (App × AppEvent)) : List Look :=
  history.foldl (fun seen x => if true ∈ x.1.announces x.2 then [] else seen ++ x.1.lookOf x.2) []

/-- Two probes in a row found nothing, or one found another card. -/
def Lost (seen : List Look) : Prop :=
  [.absent, .absent] <:+: seen ∨ ∃ kind uid, Look.present false kind uid ∈ seen

theorem Lost.append {seen : List Look} (h : Lost seen) (more : List Look) : Lost (seen ++ more) :=
  h.imp (fun h => h.trans ⟨[], more, rfl⟩)
    fun ⟨kind, uid, hmem⟩ => ⟨kind, uid, List.mem_append_left more hmem⟩

/-- What is known of the probes of this card behind a count of misses and a removal that waits. -/
structure Explained (history : List (App × AppEvent)) (app : App) : Prop where
  missed : app.runtime.removeMisses ≠ 0 → ∃ earlier, looksSince history = earlier ++ [.absent]
  waiting : app.ccid.removeDeferred = true → Lost (looksSince history)

theorem looksSince_snoc (history : List (App × AppEvent)) {e : AppEvent} (h : true ∉ app.announces e) :
    looksSince (history ++ [(app, e)]) = looksSince history ++ app.lookOf e := by
  rw [looksSince, List.foldl_append]
  exact if_neg h

/-- A new card has nothing to explain. -/
theorem Explained.told (history : List (App × AppEvent)) {e : AppEvent}
    (hmisses : (app.next e).runtime.removeMisses = 0) (hsettled : (app.next e).ccid.removeDeferred = false) :
    Explained (history ++ [(app, e)]) (app.next e) :=
  ⟨fun h => absurd hmisses h, fun h => absurd (hsettled.symm.trans h) Bool.false_ne_true⟩

/-- An event that neither counts a miss nor takes a card out adds nothing to explain. -/
theorem Explained.quiet {history : List (App × AppEvent)} (h : Explained history app) {e : AppEvent}
    (htold : true ∉ app.announces e)
    (hlook : (app.next e).runtime.removeMisses ≠ 0 → app.runtime.removeMisses ≠ 0 ∧ app.lookOf e = [])
    (hwaiting : (app.next e).ccid.removeDeferred = true → app.ccid.removeDeferred = true) :
    Explained (history ++ [(app, e)]) (app.next e) where
  missed := fun hmisses => by
    obtain ⟨hbefore, hnone⟩ := hlook hmisses
    rw [looksSince_snoc history htold, hnone, List.append_nil]
    exact h.missed hbefore
  waiting := fun hdeferred => looksSince_snoc history htold ▸ (h.waiting (hwaiting hdeferred)).append _

/-- A removal says what the probes of its card found. -/
theorem Explained.removed {history : List (App × AppEvent)} (h : Explained history app) (hc : app.ccid.Consistent)
    (e : AppEvent) (hgone : false ∈ app.announces e) : Lost (looksSince history ++ app.lookOf e) := by
  cases e with
  | abortRequest seq => exact absurd hgone List.not_mem_nil
  | poll env packet =>
      change false ∈ (app.ccid.poll env packet).notified ++ [] at hgone
      rw [List.append_nil] at hgone
      exact (h.waiting ((Reader.poll_card hc env packet).2 hgone)).append _
  | loopStep now later probe =>
      obtain ⟨seen, rt, events, hseen, -, hreports, hstep⟩ := app.exists_step now later probe
      have hlook : app.lookOf (.loopStep now later probe) = seen.toList := congrArg Option.toList hseen
      rw [announces, hreports] at hgone
      rw [hlook]
      cases hstep with
      | quiet _ _ => exact absurd hgone List.not_mem_nil
      | seen _ _ => exact absurd hgone List.not_mem_nil
      | missed _ _ => exact absurd hgone List.not_mem_nil
      | @replaced _ kind uid _ _ _ _ _ => exact .inr ⟨kind, uid, List.mem_append_right _ (List.mem_singleton.mpr rfl)⟩
      | gone _ _ _ hbefore =>
          obtain ⟨earlier, hearlier⟩ := h.missed hbefore
          exact .inl ⟨earlier, [], by simp [hearlier]⟩
      | @found _ kind _ hcard _ _ _ _ =>
          rw [Reader.found_spec (Reader.cardPresent_of_currentIccLevel hcard)] at hgone
          exact absurd hgone (by simp)

theorem Explained.next {history : List (App × AppEvent)} (h : Explained history app) (hc : app.ccid.Consistent)
    (e : AppEvent) : Explained (history ++ [(app, e)]) (app.next e) := by
  cases e with
  | abortRequest seq => exact h.quiet List.not_mem_nil (fun hmisses => ⟨hmisses, rfl⟩) id
  | poll env packet =>
      have hsettled : (app.ccid.poll env packet).reader.removeDeferred = false := Reader.settled_poll hc env packet
      refine h.quiet ?_ (fun hmisses => ⟨hmisses, rfl⟩) fun hdeferred =>
        absurd (hsettled.symm.trans hdeferred) Bool.false_ne_true
      change true ∉ (app.ccid.poll env packet).notified ++ []
      rw [List.append_nil]
      exact Reader.poll_tells_no_card hc env packet
  | loopStep now later probe =>
      obtain ⟨seen, rt, events, hseen, hnext, hreports, hstep⟩ := app.exists_step now later probe
      have hlook : app.lookOf (.loopStep now later probe) = seen.toList := congrArg Option.toList hseen
      have hruntime : (app.next (.loopStep now later probe)).runtime = rt := congrArg App.runtime hnext
      have hccid : (app.next (.loopStep now later probe)).ccid = lifecycle.after app.ccid events :=
        congrArg App.ccid hnext
      have hannounces : app.announces (.loopStep now later probe) = notifications
          (lifecycle.trace app.ccid events) := by
        rw [announces, hreports]
      cases hstep with
      | quiet _ hmisses =>
          refine h.quiet (hannounces ▸ List.not_mem_nil) (fun hnow => ⟨fun hzero => hnow ?_, hlook⟩)
            fun hdeferred => (congrArg Reader.removeDeferred hccid).symm.trans hdeferred
          exact (congrArg Runtime.removeMisses hruntime).trans (hmisses.elim id fun hsame => hsame.trans hzero)
      | seen _ hmisses =>
          exact h.quiet (hannounces ▸ List.not_mem_nil)
            (fun hnow => absurd ((congrArg Runtime.removeMisses hruntime).trans hmisses) hnow)
            fun hdeferred => (congrArg Reader.removeDeferred hccid).symm.trans hdeferred
      | missed _ _ =>
          have htold : true ∉ app.announces (.loopStep now later probe) := hannounces ▸ List.not_mem_nil
          have hsnoc := looksSince_snoc history htold
          refine ⟨fun _ => ⟨looksSince history, hsnoc.trans (by rw [hlook]; rfl)⟩, fun hdeferred => ?_⟩
          rw [hsnoc]
          exact (h.waiting ((congrArg Reader.removeDeferred hccid).symm.trans hdeferred)).append _
      | @replaced _ kind _ _ _ _ _ hmisses =>
          refine .told history ((congrArg Runtime.removeMisses hruntime).trans hmisses) ?_
          rw [hccid]
          exact (Reader.onTagDetected_reader _ kind).2.1
      | gone hcard _ hmisses hbefore =>
          -- The removal is announced now, or it waits; the two misses that explain it are in the probes either way.
          have htold : true ∉ app.announces (.loopStep now later probe) := by
            rw [hannounces]
            exact Reader.removed_tells_no_card (cardPresent_of_status hcard) later
          refine ⟨fun h => absurd ((congrArg Runtime.removeMisses hruntime).trans hmisses) h, fun _ => ?_⟩
          obtain ⟨earlier, hearlier⟩ := h.missed hbefore
          rw [looksSince_snoc history htold, hlook]
          exact .inl ⟨earlier, [], by simp [hearlier]⟩
      | @found _ kind _ _ _ _ _ hmisses =>
          refine .told history ((congrArg Runtime.removeMisses hruntime).trans hmisses) ?_
          rw [hccid]
          exact (app.ccid.onTagDetected_reader kind).2.1

/-- **A card is never announced gone for one missed probe.** Behind each removal, two probes in a row found nothing, or
one found another card, since the host was told of the card that leaves. -/
theorem app_removal (baselineAmp : Byte) (history : List (App × AppEvent)) (app : App)
    (hrun : (machine baselineAmp).Run history app) (e : AppEvent) (hgone : false ∈ app.announces e) :
    Lost (looksSince history ++ app.lookOf e) := by
  have hexplained : Explained history app := by
    clear hgone
    induction hrun with
    | start => exact ⟨fun h => absurd rfl h, fun h => absurd h Bool.false_ne_true⟩
    | @step _ app e hrun _ ih => exact ih.next (run_consistent hrun) e
  exact hexplained.removed (run_consistent hrun) e hgone

def keyBack : AppEvent := .loopStep 400 400 keyThere

/-- A key leaves, comes back, is missed once, seen again and missed twice. -/
def twoVisits : List AppEvent :=
  [keyArrives, keyMissed 150, keyMissed 200, keyBack, keyMissed 450, .loopStep 500 500 keyThere, keyMissed 550]

theorem app_removal_key :
    announcements ((machine 0).trace (start 0) twoVisits) = [true, false, true] ∧
      looksSince ((machine 0).trace (start 0) twoVisits) = [.absent, .present true .type4 securityKey.1, .absent] ∧
      (behind twoVisits).announces (keyMissed 600) = [false] ∧
      Lost (looksSince ((machine 0).trace (start 0) twoVisits) ++ (behind twoVisits).lookOf (keyMissed 600)) := by
  have hgone : (behind twoVisits).announces (keyMissed 600) = [false] := by decide
  refine ⟨by decide, by decide, hgone, app_removal 0 _ _ (run_behind twoVisits) (keyMissed 600) ?_⟩
  rw [hgone]
  simp

end App

end NeroReader.Ccid
